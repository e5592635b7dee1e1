import FlashVolume.Proofs.Memory.Digests
import FlashVolume.Proofs.Shell.Rendering
import FlashVolume.Proofs.Text.Utf8
import FlashVolume.Shell.Reply
import Mathlib.Data.List.DropRight
/-!
# What is written at the shell is read back

Sections 8 and 10.7 of the specification: `write`, `append`, and the questions about a file.

Lines that write and append texts are answered one after the other, and then files are asked for.
An edit goes a long way: its line is read as a command, the text becomes bytes, the bytes replace
those of a file or are put behind them, and their number is the reply. A question goes the same way
back. The lemmas keep the parts apart:

| part | lemma |
| --- | --- |
| the line of an edit is its command | `Command.parse_edit` |
| an edit makes a text from the one before it | `Edit.textAt_concat` |
| so it leads from the files of some edits to those of one more | `MemoryVolume.replies_edit` |
| and a conversation to the files of all its edits | `MemoryVolume.exists_converse` |
| what is asked of a file with the bytes of a text | `MemoryVolume.replies_read`, `replies_digest` |
-/

namespace FlashVolume

open Operation

/-! ### Edits -/

/-- A line that changes a file. -/
inductive Edit where
  | write (path text : String)
  | append (path text : String)
deriving DecidableEq, Repr

namespace Edit

def path : Edit → String
  | write path _ | append path _ => path

def text : Edit → String
  | write _ text | append _ text => text

def isAppend : Edit → Bool
  | write _ _ => false
  | append _ _ => true

def line : Edit → String
  | write path text => "write " ++ path ++ " " ++ text
  | append path text => "append " ++ path ++ " " ++ text

def command : Edit → Command
  | write path text => .write path text
  | append path text => .append path text

/-- What the line is answered with. -/
def reply : Edit → String
  | write _ text => s!"wrote {Text.byteLength text} bytes"
  | append _ text => s!"appended {Text.byteLength text} bytes"

/-- The text of a file after the edit. -/
def change : Edit → String → String
  | write _ text, _ => text
  | append _ text, old => old ++ text

/-- The text that edits leave at a path: that of the last `write`, and behind it those of the
`append`s that are later. -/
def textAt (path : String) (edits : List Edit) : String :=
  let own := edits.filter (·.path = path)
  (own.rdropWhile isAppend).getLast?.elim "" text ++
    String.join ((own.rtakeWhile isAppend).map text)

example : textAt "a" [append "a" "1", write "a" "2", append "b" "3", append "a" "4"] = "24" := by
  decide

variable {edits : List Edit}

/-- **One more edit changes the text at its own path,** and no other. -/
theorem textAt_concat (path : String) (edits : List Edit) (e : Edit) :
    textAt path (edits ++ [e]) =
      if e.path = path then e.change (textAt path edits) else textAt path edits := by
  by_cases hpath : e.path = path
  · have hown : (edits ++ [e]).filter (·.path = path) = edits.filter (·.path = path) ++ [e] := by
      rw [List.filter_append, List.filter_cons_of_pos (by simpa using hpath), List.filter_nil]
    rw [if_pos hpath]
    simp only [textAt, hown, List.rdropWhile_concat, List.rtakeWhile_concat]
    cases e with
    | write p t => simp [isAppend, change, text]
    | append p t => simp [isAppend, change, text, String.append_assoc]
  · have hown : (edits ++ [e]).filter (·.path = path) = edits.filter (·.path = path) := by
      rw [List.filter_append, List.filter_cons_of_neg (by simpa using hpath), List.filter_nil,
        List.append_nil]
    rw [if_neg hpath]
    simp only [textAt, hown]

/-- There is no text at a path without an edit. -/
theorem textAt_eq_empty {path : String} (h : path ∉ edits.map Edit.path) :
    textAt path edits = "" := by
  have hnone : edits.filter (·.path = path) = [] := by
    rw [List.filter_eq_nil_iff]
    intro e he
    rw [decide_eq_true_iff]
    rintro rfl
    exact h (List.mem_map_of_mem he)
  rw [textAt, hnone]
  rfl

end Edit

/-! ### Lines -/

namespace Command

/-- A word, a path and a text with one space between them. The space in front of an empty text is
one at the end of the line. -/
theorem isWritten_text {word : String} (hlower : word.toList.map Char.toLower = word.toList)
    (path text : String) :
    (Phrase.mk word [path] text).IsWritten (word ++ " " ++ path ++ " " ++ text) := by
  have hspaced : Text.Spaced [path.toList] ([' '] ++ path.toList ++ []) :=
    .cons (by decide) (List.cons_ne_nil ' ' []) .nil
  refine ⟨[], word.toList, [' '] ++ path.toList ++ [], if text = "" then [] else ' ' :: text.toList,
    if text = "" then [' '] else [], ?_, List.forall_mem_nil _, hlower, hspaced,
    ⟨' ', by decide, rfl⟩, ?_⟩
  · by_cases hnone : text = ""
    · simp [hnone]
    · simp [hnone]
  · split <;> decide

/-- **The line of an edit is read as its command.** -/
theorem parse_edit {e : Edit} (hpath : Text.IsWord e.path.toList)
    (htext : ¬Text.EndsInBlank e.text.toList) : parse e.line = e.command := by
  cases e with
  | write path text =>
    have hplain : (write path text).IsPlain := ⟨hpath, htext⟩
    have hlower : "write".toList.map Char.toLower = "write".toList := by decide
    exact parse_written hplain rfl (isWritten_text hlower path text)
  | append path text =>
    have hplain : (append path text).IsPlain := ⟨hpath, htext⟩
    have hlower : "append".toList.map Char.toLower = "append".toList := by decide
    exact parse_written hplain rfl (isWritten_text hlower path text)

/-- A line of words is read as the command that it is written for. -/
theorem parse_line {c : Command} {p : Phrase} (hplain : c.IsPlain) (hphrase : c.phrase? = some p) :
    parse p.line = c :=
  parse_written hplain hphrase (Phrase.isWritten_line p (word_phrase? hphrase).2)

variable {path : String} (hpath : Text.IsWord path.toList)
include hpath

/-- Without an offset a file is read from its start. -/
theorem parse_read : parse ("read " ++ path) = read path 0 := by
  have hline : Phrase.line ⟨"read", [path], ""⟩ = "read " ++ path := by
    simp [Phrase.line, optionalWord]
  have hword : Text.IsWord "read".toList := by decide
  have hwritten := Phrase.isWritten_line ⟨"read", [path], ""⟩ (by dsimp only; decide)
  have hfirst := (hwritten.cut hword).1
  have hwords := hwritten.words hword (List.forall_mem_singleton.2 hpath) rfl
  rw [wordOf, hline] at hfirst
  rw [argumentOf, hline] at hwords
  simp [parse, hfirst, hwords, ofReadWords]

/-- A read with an offset is read back. -/
theorem parse_readFrom (k : UInt64) :
    parse ("read " ++ path ++ " " ++ toString k) = read path k.toNat := by
  have hoffset : k.toNat ≤ Word.maxUnsigned64 := Nat.le_of_lt_succ k.toNat_lt
  have hline : Phrase.line ⟨"read", [path, toString k.toNat], ""⟩ =
      "read " ++ path ++ " " ++ toString k := by
    have hdigits : toString k = toString k.toNat := rfl
    simp [Phrase.line, optionalWord, String.append_assoc, hdigits]
  rw [← hline]
  exact parse_line (c := read path k.toNat) ⟨hpath, hoffset⟩ rfl

/-- A size is read back. -/
theorem parse_size : parse ("size " ++ path) = size path := by
  have hline : Phrase.line ⟨"size", [path], ""⟩ = "size " ++ path := by
    simp [Phrase.line, optionalWord]
  rw [← hline]
  exact parse_line (c := size path) hpath rfl

/-- A digest of a whole file is read back. -/
theorem parse_digest (algorithm : Algorithm) :
    parse (algorithm.name ++ " " ++ path) = digest algorithm path none := by
  have hline : Phrase.line ⟨algorithm.name, [path], ""⟩ = algorithm.name ++ " " ++ path := by
    simp [Phrase.line, optionalWord, String.append_assoc]
  have hplain : (digest algorithm path none).IsPlain := ⟨hpath, fun n hn => by cases hn⟩
  rw [← hline]
  exact parse_line hplain rfl

end Command

/-- What the shell does with a command is to work out the answer. -/
theorem Reply.run_ofCommand [Allocator] {σ : Type} (B : Backend σ) (s : σ) (config : Config)
    {c : Command} (hc : c ≠ .quit) : (ofCommand config c).run B s =
      (ofResult (runOn B (answer config c) s).1, (runOn B (answer config c) s).2) := by
  have hcommand : ofCommand config c =
      (answer config c).run.bind fun result => .ret (ofResult result) := by
    cases c <;> first | exact absurd rfl hc | rfl
  rw [hcommand, Program.run_bind]
  rfl

/-! ### Conversations -/

/-- The files after the edits, which had been `m`. -/
def PathMap.edited (m : PathMap) (edits : List Edit) : PathMap := fun p =>
  if p ∈ edits.map Edit.path then some (.file (Text.encode (Edit.textAt p edits))) else m p

/-- The line of the edit can be written, and the path is free in a directory. -/
structure PathMap.Admits (m : PathMap) (e : Edit) : Prop where
  path : ∀ c ∈ e.path.toList, Text.isBlank c = false
  text : ¬Text.EndsInBlank e.text.toList
  free : m e.path = none
  parent : m (Path.parent e.path) = some .directory

instance (m : PathMap) (e : Edit) : Decidable (m.Admits e) :=
  decidable_of_iff (e.path.toList.all (!Text.isBlank ·) = true ∧
      ¬Text.EndsInBlank e.text.toList ∧ m e.path = none ∧
        m (Path.parent e.path) = some .directory)
    ⟨fun ⟨hpath, htext, hfree, hparent⟩ => ⟨by simpa using hpath, htext, hfree, hparent⟩,
      fun h => ⟨by simpa using h.path, h.text, h.free, h.parent⟩⟩

namespace MemoryVolume

variable {v : MemoryVolume} {m : PathMap} {config : Config}

/-- The replies to lines, one after the other, and the volume after them. -/
def converse [Allocator] (config : Config)
    (v : MemoryVolume) : List String → List Reply × MemoryVolume
  | [] => ([], v)
  | line :: lines =>
    let (reply, v) := (Reply.ofCommand config (Command.parse line)).run backend v
    let (replies, v) := v.converse config lines
    (reply :: replies, v)

/-- The volume answers the line with the text, and has the files `m` afterwards. -/
def Replies [Allocator] (v : MemoryVolume) (config : Config) (line text : String)
    (m : PathMap) : Prop :=
  ∃ v', (Reply.ofCommand config (Command.parse line)).run backend v = (.text text, v') ∧
    v'.IsReady ∧ v'.pathMap = m

/-- A result is put into words. -/
theorem Yields.bind_pure {α : Type} {p : Operation α} {a : α} (h : v.Yields p (.ok a) m)
    (words : α → String) : v.Yields (p >>= fun a => pure (words a)) (.ok (words a)) m := by
  obtain ⟨v', hrun, hv', hmap⟩ := h
  refine ⟨v', ?_, hv', hmap⟩
  rw [runOn_bind, hrun]
  rfl

/-- What a command yields is what its line is answered with. -/
theorem Yields.replies [Allocator] {c : Command} {line text : String}
    (hparse : Command.parse line = c)
    (hc : c ≠ .quit) (h : v.Yields (Reply.answer config c) (.ok text) m) :
    v.Replies config line text m := by
  obtain ⟨v', hrun, hv', hmap⟩ := h
  refine ⟨v', ?_, hv', hmap⟩
  rw [hparse, Reply.run_ofCommand backend v config hc, hrun]
  rfl

end MemoryVolume

namespace PathMap

variable {m : PathMap} {e : Edit} {done : List Edit}

/-- A path that is admitted is not empty, as its parent would be itself. -/
theorem Admits.isWord (h : m.Admits e) : Text.IsWord e.path.toList := by
  refine ⟨?_, h.path⟩
  intro hempty
  have hself : Path.parent e.path = e.path := by
    rw [String.toList_eq_nil_iff.1 hempty]
    decide
  have hparent := h.parent
  rw [hself, h.free] at hparent
  cases hparent

/-- **Each edit finds the text that those before it have left.** -/
theorem Admits.beforeWrite (h : m.Admits e) (hdone : ∀ e' ∈ done, m.Admits e') :
    (m.edited done).beforeWrite e.path = .ok (Text.encode (Edit.textAt e.path done)) := by
  rw [beforeWrite_eq_ok]
  by_cases hpath : e.path ∈ done.map Edit.path
  · exact .inl (if_pos hpath)
  · -- Where a parent is, there is no edit, as the path of an edit has been free.
    have hparent : Path.parent e.path ∉ done.map Edit.path := by
      intro hmem
      obtain ⟨e', he', hsame⟩ := List.mem_map.1 hmem
      have hfree := (hdone e' he').free
      rw [hsame, h.parent] at hfree
      cases hfree
    refine .inr ⟨(if_neg hpath).trans h.free, (if_neg hparent).trans h.parent, ?_⟩
    rw [Edit.textAt_eq_empty hpath]
    rfl

/-- An edit leads to the files of one edit more. -/
theorem update_edited (m : PathMap) (done : List Edit) (e : Edit) :
    (m.edited done).update e.path
        (some (.file (Text.encode (e.change (Edit.textAt e.path done))))) =
      m.edited (done ++ [e]) := by
  funext p
  simp only [update, edited, List.map_append, List.map_cons, List.map_nil, List.mem_append,
    List.mem_singleton, Edit.textAt_concat]
  by_cases hp : p = e.path
  · subst hp
    simp
  · simp [hp, Ne.symm hp]

end PathMap

namespace MemoryVolume

variable {v : MemoryVolume} {m : PathMap} {config : Config} {e : Edit} {done : List Edit}

/-- **An edit is answered with the number of its bytes,** and leads to the files of one edit
more. -/
theorem replies_edit [Allocator] (config : Config) (hv : v.IsReady)
    (hmap : v.pathMap = m.edited done) (he : m.Admits e) (hdone : ∀ e' ∈ done, m.Admits e') :
    v.Replies config e.line e.reply (m.edited (done ++ [e])) := by
  have hparse := Command.parse_edit he.isWord he.text
  have hpath : e.path ≠ "" := he.isWord.ne_empty
  have hbefore := he.beforeWrite hdone
  rw [← PathMap.update_edited]
  cases e with
  | write path text =>
    have hyields := write_yields hv hpath config (Text.encode text)
    rw [hmap, hbefore, PathMap.replace_of_ok hbefore, Text.length_encode] at hyields
    exact Yields.replies hparse Command.noConfusion
      (hyields.bind_pure fun n => s!"wrote {n} bytes")
  | append path text =>
    have hyields := append_yields hv hpath (Text.encode text)
    rw [hmap, hbefore, PathMap.replace_of_ok hbefore, ← Text.encode_append,
      Text.length_encode] at hyields
    exact Yields.replies hparse Command.noConfusion
      (hyields.bind_pure fun n => s!"appended {n} bytes")

/-- **A conversation leads to the files of all its edits.** -/
theorem exists_converse [Allocator] (config : Config) (hv : v.IsReady)
    (hmap : v.pathMap = m.edited done)
    {edits : List Edit} (hdone : ∀ e ∈ done, m.Admits e) (hedits : ∀ e ∈ edits, m.Admits e) :
    ∃ v', v.converse config (edits.map Edit.line) = (edits.map fun e => .text e.reply, v') ∧
      v'.IsReady ∧ v'.pathMap = m.edited (done ++ edits) := by
  -- By induction on the edits that are left; those before them have led to the files so far.
  induction edits generalizing v done with
  | nil =>
    rw [List.append_nil]
    exact ⟨v, rfl, hv, hmap⟩
  | cons e edits ih =>
    rw [List.forall_mem_cons] at hedits
    obtain ⟨v₁, hrun, hv₁, hmap₁⟩ := replies_edit config hv hmap hedits.1 hdone
    have hdone₁ : ∀ e' ∈ done ++ [e], m.Admits e' :=
      List.forall_mem_append.2 ⟨hdone, List.forall_mem_singleton.2 hedits.1⟩
    obtain ⟨v', hrest, hv', hmap'⟩ := ih hv₁ hmap₁ hdone₁ hedits.2
    refine ⟨v', ?_, hv', ?_⟩
    · simp only [List.map_cons, converse, hrun, hrest]
    · rw [hmap', List.append_assoc, List.singleton_append]

/-! ### Questions -/

section Questions

variable {path text : String} (hv : v.IsReady) (hpath : Text.IsWord path.toList)
  (hnode : v.pathMap path = some (.file (Text.encode text)))
include hv hpath hnode

/-- The size of the file is the number of its bytes. -/
theorem runOn_size_text : runOn backend (File.size path) v = (.ok (Text.byteLength text), v) := by
  have hsome : path ≠ "" := hpath.ne_empty
  rw [runOn_size hv hsome, hnode, ← Text.length_encode]

/-- **What is read from an offset is what the bytes from there on write.** -/
theorem fileText_yields (k : Nat) : v.Yields (Reply.fileText path k)
    (.ok (Text.decodeLossy ((Text.encode text).drop k))) v.pathMap := by
  have hsome : path ≠ "" := hpath.ne_empty
  have hfits : ((Text.encode text).drop k).length =
      (List.replicate (Text.byteLength text - k) (0 : UInt8)).length := by
    rw [List.length_drop, Text.length_encode, List.length_replicate]
  obtain ⟨v', hrun, hv', hmap⟩ :=
    withFile_read hv hnode k (List.replicate (Text.byteLength text - k) 0)
  rw [← runOn_read hv hsome hnode, ← hfits, List.take_length] at hrun
  refine ⟨v', ?_, hv', hmap⟩
  simp only [Reply.fileText, runOn_bind, runOn_size_text hv hpath hnode, hrun, runOn_pure,
    take_fill (Nat.le_of_eq hfits)]

/-- **A text is read back from a byte between two characters on.** -/
theorem replies_readFrom [Allocator] {before after : String} (htext : text = before ++ after)
    (k : UInt64) (hk : Text.byteLength before = k.toNat) :
    v.Replies config ("read " ++ path ++ " " ++ toString k) after v.pathMap := by
  refine Yields.replies (Command.parse_readFrom hpath k) Command.noConfusion ?_
  have hyields := fileText_yields hv hpath hnode (Text.byteLength before)
  rw [htext, Text.drop_encode, Text.decodeLossy_encode] at hyields
  rwa [← hk]

/-- Behind the end there is nothing to read. -/
theorem replies_readBehind [Allocator] (k : UInt64) (hk : Text.byteLength text ≤ k.toNat) :
    v.Replies config ("read " ++ path ++ " " ++ toString k) "" v.pathMap := by
  refine Yields.replies (Command.parse_readFrom hpath k) Command.noConfusion ?_
  have hyields := fileText_yields hv hpath hnode k.toNat
  rwa [List.drop_of_length_le (by rwa [Text.length_encode])] at hyields

/-- **A text is read back.** -/
theorem replies_read [Allocator] : v.Replies config ("read " ++ path) text v.pathMap := by
  refine Yields.replies (Command.parse_read hpath) Command.noConfusion ?_
  have hyields := fileText_yields hv hpath hnode 0
  rwa [List.drop_zero, Text.decodeLossy_encode] at hyields

/-- The shell tells the length of the text in bytes. -/
theorem replies_size [Allocator] :
    v.Replies config ("size " ++ path) (toString (Text.byteLength text)) v.pathMap := by
  refine Yields.replies (Command.parse_size hpath) Command.noConfusion ⟨v, ?_, hv, rfl⟩
  simp only [Reply.answer, runOn_bind, runOn_size_text hv hpath hnode, runOn_pure]

/-- A digest of the whole file is answered as what it yields. -/
theorem replies_ofFile [Allocator] {algorithm : Algorithm} {answer : Except Error Digest}
    (h : v.Yields (Digest.ofFile path (Text.byteLength text) algorithm config) answer v.pathMap)
    {reply : String} (hreply : Reply.ofResult (answer.map Digest.toHex) = .text reply) :
    v.Replies config (algorithm.name ++ " " ++ path) reply v.pathMap := by
  obtain ⟨v', hrun, hv', hmap⟩ := h
  refine ⟨v', ?_, hv', hmap⟩
  rw [Command.parse_digest hpath algorithm,
    Reply.run_ofCommand backend v config Command.noConfusion, ← hreply]
  simp only [Reply.answer, Reply.digestText, runOn_bind,
    runOn_size_text hv hpath hnode, hrun]
  cases answer <;> rfl

/-- **The digest is that of all bytes,** as the standard describes it, if a chunk has bytes or none
is needed, and memory is given for the buffer of one. -/
theorem replies_digest [Allocator] (algorithm : Algorithm)
    (hchunk : algorithm.chunkSize config = 0 → text = "")
    (hbuffer : Allocator.grantsBytes (min (Text.byteLength text) (algorithm.chunkSize config)) =
      true) :
    v.Replies config (algorithm.name ++ " " ++ path)
      (algorithm.standard (Text.encode text)).toHex v.pathMap := by
  obtain ⟨file, v₁, hworking, hlift⟩ := exists_stream hv hpath.ne_empty hnode
  refine replies_ofFile hv hpath hnode
    (hlift _ _ _ (.ok (algorithm.standard (Text.encode text))) ?_) rfl
  rw [← Algorithm.digest_eq_standard]
  rcases Nat.eq_zero_or_pos (algorithm.chunkSize config) with hzero | hpos
  · obtain rfl := hchunk hzero
    rw [hzero]
    exact stream_zeroChunk hworking.ready 0 algorithm
  · have hstream := stream_yields hworking hpos (Nat.le_refl _)
      (by rwa [Text.length_encode]) algorithm
    rwa [List.take_length, Text.length_encode] at hstream

/-- Without bytes in a chunk there is no digest of a text. -/
theorem replies_zeroChunk [Allocator] (algorithm : Algorithm)
    (hzero : algorithm.chunkSize config = 0) (htext : text ≠ "") :
    v.Replies config (algorithm.name ++ " " ++ path) "error -1: Invalid input: zero chunk size"
      v.pathMap := by
  obtain ⟨file, v₁, hworking, hlift⟩ := exists_stream hv hpath.ne_empty hnode
  have hpos : 0 < Text.byteLength text :=
    Nat.pos_of_ne_zero (mt String.utf8ByteSize_eq_zero_iff.1 htext)
  have hstream : v₁.Yields (Digest.stream file path (Text.byteLength text) 0 algorithm) _ _ :=
    stream_zeroChunk hworking.ready _ algorithm
  rw [if_pos hpos, ← hzero] at hstream
  exact replies_ofFile hv hpath hnode (hlift _ _ _ _ hstream) rfl

/-- Without memory for the buffer there is no digest. -/
theorem replies_refused [Allocator] (algorithm : Algorithm)
    (hchunk : 0 < algorithm.chunkSize config)
    (hbuffer : ¬Allocator.grantsBytes (min (Text.byteLength text) (algorithm.chunkSize config)) =
      true) :
    v.Replies config (algorithm.name ++ " " ++ path)
      s!"error -12: Out of memory: {
        min (Text.byteLength text) (algorithm.chunkSize config)} byte digest buffer" v.pathMap := by
  obtain ⟨file, v₁, hworking, hlift⟩ := exists_stream hv hpath.ne_empty hnode
  exact replies_ofFile hv hpath hnode
    (hlift _ _ _ _ (stream_refused hworking.ready hchunk hbuffer algorithm)) rfl

end Questions

/-- The lines that ask for a file are answered as for one with the text, and change nothing. -/
structure ReadsBack [Allocator] (v : MemoryVolume) (config : Config)
    (path text : String) : Prop where
  read : v.Replies config ("read " ++ path) text v.pathMap
  readFrom : ∀ (before after : String) (k : UInt64), text = before ++ after →
    Text.byteLength before = k.toNat →
      v.Replies config ("read " ++ path ++ " " ++ toString k) after v.pathMap
  readBehind : ∀ k : UInt64, Text.byteLength text ≤ k.toNat →
    v.Replies config ("read " ++ path ++ " " ++ toString k) "" v.pathMap
  size : v.Replies config ("size " ++ path) (toString (Text.byteLength text)) v.pathMap
  /-- The digest is that of the standard, if it can be taken in chunks at all and the machine gives
  the buffer of one. -/
  digest : ∀ algorithm : Algorithm, (algorithm.chunkSize config = 0 → text = "") →
    Allocator.grantsBytes (min (Text.byteLength text) (algorithm.chunkSize config)) = true →
      v.Replies config (algorithm.name ++ " " ++ path)
        (algorithm.standard (Text.encode text)).toHex v.pathMap
  /-- No configuration that is accepted has chunks without bytes. -/
  zeroChunk : ∀ algorithm : Algorithm, algorithm.chunkSize config = 0 → text ≠ "" →
    v.Replies config (algorithm.name ++ " " ++ path) "error -1: Invalid input: zero chunk size"
      v.pathMap
  refused : ∀ algorithm : Algorithm, 0 < algorithm.chunkSize config →
    ¬Allocator.grantsBytes (min (Text.byteLength text) (algorithm.chunkSize config)) = true →
      v.Replies config (algorithm.name ++ " " ++ path)
        s!"error -12: Out of memory: {
          min (Text.byteLength text) (algorithm.chunkSize config)} byte digest buffer" v.pathMap

/-- **What is written at the shell is read back.**  Every edit is answered with the number of bytes
of its text. Afterwards each file that has been edited has the text of the last `write` to it and
of the `append`s behind that: whole, from any byte between two characters on, in its size and, if
the machine gives the buffer, in its digests, which are those of the standards. -/
theorem converse_readsBack [Allocator] (hmounted : v.mounted = true) (hfaults : v.faults = {})
    (config : Config) {edits : List Edit} (hedits : ∀ e ∈ edits, v.pathMap.Admits e) :
    ∃ v', v.converse config (edits.map Edit.line) = (edits.map fun e => .text e.reply, v') ∧
      ∀ e ∈ edits, v'.ReadsBack config e.path (Edit.textAt e.path edits) := by
  have hstart : v.pathMap = v.pathMap.edited [] := rfl
  obtain ⟨v', hrun, hv', hmap⟩ := exists_converse config ⟨hmounted, hfaults⟩ hstart
    (List.forall_mem_nil _) hedits
  refine ⟨v', hrun, fun e he => ?_⟩
  have hword := (hedits e he).isWord
  have hnode : v'.pathMap e.path = some (.file (Text.encode (Edit.textAt e.path edits))) := by
    rw [hmap]
    exact if_pos (List.mem_map_of_mem he)
  exact
    { read := replies_read hv' hword hnode
      readFrom := fun before after k htext hk => replies_readFrom hv' hword hnode htext k hk
      readBehind := replies_readBehind hv' hword hnode
      size := replies_size hv' hword hnode
      digest := replies_digest hv' hword hnode
      zeroChunk := replies_zeroChunk hv' hword hnode
      refused := replies_refused hv' hword hnode }

/-- Two files in turn, one of them rewritten, the other with a text that starts with a blank and is
not ASCII; the first one comes to the digits from 1 to 9, and its digests are their check values. -/
theorem converse_readsBack_two :
    letI : Allocator := .upTo 1024 16
    let v := newMounted "/lfs"
    let edits : List Edit := [.write "/lfs/n" "old", .append "/lfs/é" " ü€",
      .write "/lfs/n" "12345", .append "/lfs/n" "6789"]
    v.mounted = true ∧ v.faults = {} ∧ (∀ e ∈ edits, v.pathMap.Admits e) ∧
      ∃ v', v.converse {} (edits.map Edit.line) =
          ([.text "wrote 3 bytes", .text "appended 6 bytes", .text "wrote 5 bytes",
            .text "appended 4 bytes"], v') ∧
        v'.Replies {} "read /lfs/n" "123456789" v'.pathMap ∧
        v'.Replies {} "crc32 /lfs/n" "cbf43926" v'.pathMap ∧
        v'.Replies {} "sha256 /lfs/n"
          "15e2b0d3c33891ebb0f1ef609ec419420c20e320ce94c65fbc8c3312448eb225" v'.pathMap ∧
        v'.Replies {} "size /lfs/é" "6" v'.pathMap ∧
        v'.Replies {} "read /lfs/é 3" "€" v'.pathMap := by
  intro v edits
  let _ : Allocator := .upTo 1024 16
  have hedits : ∀ e ∈ edits, v.pathMap.Admits e := by decide
  obtain ⟨v', hrun, hback⟩ := @converse_readsBack v _ rfl rfl {} edits hedits
  have hreplies : (edits.map fun e => Reply.text e.reply) = [.text "wrote 3 bytes",
      .text "appended 6 bytes", .text "wrote 5 bytes", .text "appended 4 bytes"] := by decide
  have hn := hback (.write "/lfs/n" "old") (by decide)
  have he := hback (.append "/lfs/é" " ü€") (by decide)
  have hchecksum : (Algorithm.crc32.standard (Text.encode "123456789")).toHex = "cbf43926" := by
    rw [← Algorithm.digest_eq_standard]
    decide +kernel
  have hhash : (Algorithm.sha256.standard (Text.encode "123456789")).toHex =
      "15e2b0d3c33891ebb0f1ef609ec419420c20e320ce94c65fbc8c3312448eb225" := by
    rw [← Algorithm.digest_eq_standard]
    decide +kernel
  have hsize : toString (Text.byteLength (Edit.textAt "/lfs/é" edits)) = "6" := by decide
  have hfrom := he.readFrom " ü" "€" 3 (by decide) (by decide)
  refine ⟨rfl, rfl, hedits, v', hreplies ▸ hrun, hn.read, ?_, ?_, hsize ▸ he.size, hfrom⟩
  · rw [← hchecksum]
    exact hn.digest .crc32 (by decide) (by decide)
  · rw [← hhash]
    exact hn.digest .sha256 (by decide) (by decide)

end MemoryVolume
end FlashVolume
