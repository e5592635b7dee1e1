import FlashVolume.Proofs.Request
import FlashVolume.Proofs.Storage.Agreement
import FlashVolume.Proofs.Storage.Finding
/-!
# The operations agree

On two volumes that show the same map every operation succeeds on both or fails on both, with the
same answer, and leaves volumes that show the same map. Entries may come in another order.
-/

universe u v

namespace FlashVolume

namespace Presentation

open Operation

variable {site : Site} {σ : Type u} {τ : Type v} {A : Backend σ} {B : Backend τ}
  {P : Presentation site A} {Q : Presentation site B} {path : String}

/-! ### Files -/

section Files

/-- The entry of one path reads the same on both sides, and so does the error of a missing one. -/
theorem agrees_stat (hpath : site.IsPath path) (fault : StorageError → Error) :
    P.Agrees Q (P.Same Q) (requestOr fault (.stat path)) (requestOr fault (.stat path))
      (P.Equal Q) := by
  obtain ⟨names, hnames, rfl⟩ := hpath
  exact agrees_requestOr fault fun s t hst => meets_stat P Q hnames hst

/-- Two handles of one file fill the same bytes, up to the end an offset can have. -/
theorem agrees_readFrom (offset : Nat) (buffer : Bytes)
    (hend : offset + buffer.length ≤ HostSystem.maxOffset) (file file' : FileHandle) :
    P.Agrees Q (P.Both Q ⟨path, 0, .readOnly⟩ file file') (File.readFrom offset buffer file)
      (File.readFrom offset buffer file') (P.Equal Q) := by
  have hread : P.Agrees Q (P.Both Q ⟨path, offset, .readOnly⟩ file file')
      (do
        let bytes ← request (.read file buffer.length)
        return File.fill buffer bytes)
      (do
        let bytes ← request (.read file' buffer.length)
        return File.fill buffer bytes) (P.Equal Q) := by
    refine (agrees_request fun s t hst => meets_read P Q rfl hend hst).bind fun bytes bytes' => ?_
    refine agrees_pure ?_
    rintro s t ⟨rfl, hst⟩
    exact ⟨rfl, hst.same⟩
  have hseek : P.Agrees Q (P.Both Q ⟨path, 0, .readOnly⟩ file file') (request (.seek file offset))
      (request (.seek file' offset))
      (fun _ _ => P.Both Q ⟨path, offset, .readOnly⟩ file file') := by
    refine agrees_request fun s t hst => meets_seek P Q rfl ?_ hst
    omega
  refine Agrees.ite (fun hoffset => hseek.bind fun _ _ => hread) fun hoffset => ?_
  rw [not_not.1 hoffset] at hread
  exact hread

/-- Reading a file at an offset fills the same bytes on both sides. -/
theorem agrees_read (hpath : site.IsPath path) (offset : Nat) (buffer : Bytes)
    (hend : offset + buffer.length ≤ HostSystem.maxOffset) :
    P.Agrees Q (P.Same Q) (File.read path offset buffer) (File.read path offset buffer)
      (P.Equal Q) := by
  have hfile : P.Agrees Q (P.Same Q)
      (File.withFile path .readOnly (File.readFrom offset buffer))
      (File.withFile path .readOnly (File.readFrom offset buffer)) (P.Equal Q) := by
    obtain ⟨names, hnames, rfl⟩ := hpath
    exact agrees_withFile (fun s t hst => meets_open_readOnly P Q hnames hst)
      (agrees_readFrom offset buffer hend)
  refine (agrees_requirePath path).andThen fun _ => ?_
  refine (agrees_stat hpath _).andThen fun entry => ?_
  exact Agrees.ite (fun _ => agrees_throw_bind fun _ _ hst => hst) fun _ => hfile

/-- Two handles of one file that write from its start, or append to it, leave the same contents. -/
theorem agrees_writeAll {f : OpenFile} (hmode : f.mode.write = true)
    (hstart : f.position = 0 ∨ f.mode.append = true) {data : Bytes}
    (hlength : data.length ≤ HostSystem.maxOffset) (file file' : FileHandle) :
    P.Agrees Q (P.Both Q f file file') (File.writeAll file data) (File.writeAll file' data)
      (P.Equal Q) := by
  refine (agrees_request fun s t hst => meets_write P Q hmode hstart hlength hst).andThen
    fun written => ?_
  exact Agrees.ite (fun _ => agrees_throw_bind fun _ _ hst => hst)
    fun _ => agrees_pure fun _ _ hst => ⟨rfl, hst⟩

/-- The size of a file is the same on both sides. -/
theorem agrees_size (hpath : site.IsPath path) :
    P.Agrees Q (P.Same Q) (File.size path) (File.size path) (P.Equal Q) :=
  (agrees_requirePath path).andThen fun _ => (agrees_stat hpath _).andThen fun _ =>
    agrees_pure fun _ _ hst => ⟨rfl, hst⟩

/-- Checking the size after a write finds the same mismatch or none. -/
theorem agrees_verifySize (hpath : site.IsPath path) (desired : Nat) :
    P.Agrees Q (P.Same Q) (File.verifySize path desired) (File.verifySize path desired)
      (P.Equal Q) := by
  refine (agrees_size hpath).observe.bind fun result result' => ?_
  intro s t hst
  cases hst with
  | error h => exact .error h
  | ok h =>
    obtain ⟨rfl, hst⟩ := h
    exact Agrees.ite (fun _ => agrees_throw fun _ _ hst => hst)
      (fun _ => agrees_pure fun _ _ hst => ⟨rfl, hst⟩) s t hst

/-- Writing a file replaces it with the same contents on both sides. -/
theorem agrees_write (hpath : site.IsPath path) {data : Bytes}
    (hlength : data.length ≤ HostSystem.maxOffset) (config : Config) :
    P.Agrees Q (P.Same Q) (File.write path data config) (File.write path data config)
      (P.Equal Q) := by
  have hwork : ∀ {f : OpenFile}, f.mode.write = true → f.position = 0 ∨ f.mode.append = true →
      ∀ file file', P.Agrees Q (P.Both Q f file file')
        (do request (.truncate file data.length); File.writeAll file data)
        (do request (.truncate file' data.length); File.writeAll file' data) (P.Equal Q) := by
    intro f hmode hstart file file'
    refine (agrees_request fun s t hst => meets_truncate P Q hmode hlength hst).bind fun _ _ => ?_
    exact agrees_writeAll hmode hstart hlength file file'
  have hfile : P.Agrees Q (P.Same Q)
      (File.withFile path .replacing fun file => do
        request (.truncate file data.length); File.writeAll file data)
      (File.withFile path .replacing fun file => do
        request (.truncate file data.length); File.writeAll file data) (P.Equal Q) := by
    obtain ⟨names, hnames, rfl⟩ := hpath
    refine agrees_withFile (fun s t hst => meets_open_writing P Q hnames (.inl rfl) hst) ?_
    rintro file file' s t ⟨position, hstart, hst⟩
    exact hwork rfl hstart file file' s t hst
  refine (agrees_requirePath path).andThen fun _ => hfile.andThen fun written => ?_
  have hreturn : P.Agrees Q (P.Same Q) (pure written) (pure written) (P.Equal Q) :=
    agrees_pure fun _ _ hst => ⟨rfl, hst⟩
  exact Agrees.ite (fun _ => (agrees_verifySize hpath data.length).andThen fun _ => hreturn)
    fun _ => hreturn

/-- Appending puts the same bytes behind the same contents. -/
theorem agrees_append (hpath : site.IsPath path) {data : Bytes}
    (hlength : data.length ≤ HostSystem.maxOffset) :
    P.Agrees Q (P.Same Q) (File.append path data) (File.append path data) (P.Equal Q) := by
  refine (agrees_requirePath path).andThen fun _ => ?_
  obtain ⟨names, hnames, rfl⟩ := hpath
  refine agrees_withFile (fun s t hst => meets_open_writing P Q hnames (.inr rfl) hst) ?_
  rintro file file' s t ⟨position, hstart, hst⟩
  exact agrees_writeAll rfl hstart hlength file file' s t hst

/-- A delete removes the same file, or fails with the same error. -/
theorem agrees_delete (hpath : site.IsPath path) :
    P.Agrees Q (P.Same Q) (File.delete path) (File.delete path) (P.Equal Q) := by
  refine (agrees_requirePath path).andThen fun _ => ?_
  obtain ⟨names, hnames, rfl⟩ := hpath
  exact agrees_requestOr _ fun s t hst => meets_unlink P Q hnames hst

/-- A name that does not resolve is refused on both volumes. -/
theorem agrees_inDirectory {α : Type} {dir name : String} {work : String → Operation α}
    {post : α → α → σ → τ → Prop}
    (hpaths : ∀ path, Path.resolve dir name site.config = .ok path → site.IsPath path)
    (hwork : ∀ path, site.IsPath path → P.Agrees Q (P.Same Q) (work path) (work path) post) :
    P.Agrees Q (P.Same Q) (File.inDirectory dir name site.config work)
      (File.inDirectory dir name site.config work) post := by
  rw [File.inDirectory]
  cases hresolve : Path.resolve dir name site.config with
  | error e =>
    rw [ofExcept_error_bind]
    exact agrees_throw fun _ _ hst => hst
  | ok path =>
    rw [ofExcept_ok_bind]
    exact hwork path (hpaths path hresolve)

end Files

/-! ### Digests -/

section Digests

/-- Chunks read through two handles of one file feed an engine the same bytes. -/
theorem agrees_feed (file file' : FileHandle) (text : String) {chunk : Nat} (hchunk : 0 < chunk)
    {position remaining : Nat} (hend : position + remaining ≤ HostSystem.maxOffset)
    (acc : Accumulator) :
    P.Agrees Q (P.Both Q ⟨path, position, .readOnly⟩ file file')
      (Digest.feed file text chunk hchunk remaining acc)
      (Digest.feed file' text chunk hchunk remaining acc) (P.Equal Q) := by
  -- By induction on the bytes that are still to be read, which each chunk makes fewer.
  induction remaining using Nat.strongRecOn generalizing position acc with
  | ind remaining ih =>
    rw [Digest.feed, Digest.feed]
    by_cases hremaining : remaining = 0
    · rw [dif_pos hremaining, dif_pos hremaining]
      exact agrees_pure fun _ _ hst => ⟨rfl, hst.same⟩
    · rw [dif_neg hremaining, dif_neg hremaining]
      have hread : position + min remaining chunk ≤ HostSystem.maxOffset := by omega
      refine (agrees_requestOr _ fun s t hst => meets_read P Q rfl hread hst).bind
        fun bytes bytes' => ?_
      rintro s t ⟨rfl, hst⟩
      refine Agrees.ite (fun _ => agrees_throw_bind fun _ _ hst => hst.same)
        (fun hfull => ?_) s t hst
      -- A chunk that is not refused is as long as what was asked for.
      rw [not_not] at hfull
      exact ih _ (by omega) (by simp only [hfull]; omega) _

/-- A digest of an open file takes the same buffer on both sides and feeds it the same bytes. -/
theorem agrees_stream [Allocator] (file file' : FileHandle) (text : String) {size chunk : Nat}
    (hsize : size ≤ HostSystem.maxOffset) (algorithm : Algorithm) :
    P.Agrees Q (P.Both Q ⟨path, 0, .readOnly⟩ file file')
      (Digest.stream file text size chunk algorithm)
      (Digest.stream file' text size chunk algorithm) (P.Equal Q) := by
  rw [Digest.stream, Digest.stream]
  by_cases hchunk : 0 < chunk
  · rw [dif_pos hchunk, dif_pos hchunk]
    have hend : 0 + size ≤ HostSystem.maxOffset := by omega
    refine Agrees.ite (fun _ => agrees_throw_bind fun _ _ hst => hst.same) fun _ => ?_
    exact (agrees_feed file file' text hchunk hend _).andThen fun acc =>
      agrees_pure fun _ _ hst => ⟨rfl, hst⟩
  · rw [dif_neg hchunk, dif_neg hchunk]
    exact Agrees.ite (fun _ => agrees_throw fun _ _ hst => hst.same)
      fun _ => agrees_pure fun _ _ hst => ⟨rfl, hst.same⟩

/-- The digest of a file is the same on both sides. -/
theorem agrees_ofFile [Allocator] (hpath : site.IsPath path) {size : Nat}
    (hsize : size ≤ HostSystem.maxOffset) (algorithm : Algorithm) (config : Config) :
    P.Agrees Q (P.Same Q) (Digest.ofFile path size algorithm config)
      (Digest.ofFile path size algorithm config) (P.Equal Q) := by
  refine (agrees_requirePath path).andThen fun _ => ?_
  obtain ⟨names, hnames, rfl⟩ := hpath
  exact agrees_withFile (fun s t hst => meets_open_readOnly P Q hnames hst)
    fun file file' => agrees_stream file file' _ hsize algorithm

/-- A cell makes no difference to what a digest answers. -/
theorem runOn_digestInto [Allocator] (B : Backend τ) (t : τ) (path : String) (size : Nat)
    (algorithm : Algorithm) (config : Config) (cell : Digest) :
    runOn B ((Request.digestInto path size algorithm cell).operation config) t =
      runOn B (Response.digest <$> Digest.ofFile path size algorithm config) t := by
  rw [runOn_map]
  unfold runOn
  change Program.run B
    (((((Digest.ofFile path size algorithm config).run.bind _).bind _)).bind _) t = _
  rw [Program.run_bind, Program.run_bind, Program.run_bind]
  rcases Program.run B (Digest.ofFile path size algorithm config).run t with ⟨_ | value, t'⟩
  · rfl
  · rfl

end Digests

/-! ### Directories -/

section Directories

variable {dir : String}

/-- What is found in a directory of both volumes, each in its own order. -/
def Found [Allocator] (P : Presentation site A) (Q : Presentation site B) (names : List String)
    (name : String) (kind : EntryKind) (found found' : List Entry) (s : σ) (t : τ) : Prop :=
  ∃ m entries entries', P.Shows s m ∧ Q.Shows t m ∧ site.Lists m names entries ∧
    site.Lists m names entries' ∧
      found = Directory.held (entries.filter (Directory.isMatch name kind)) ∧
      found' = Directory.held (entries'.filter (Directory.isMatch name kind))

/-- What two enumerations find under the same mask differs in its order only. -/
theorem Found.perm [Allocator] {names : List String} {name : String} {kind : EntryKind}
    {found found' : List Entry} {s : σ} {t : τ} (h : P.Found Q names name kind found found' s t) :
    found.Perm found' ∧ P.Same Q s t := by
  obtain ⟨m, entries, entries', hs, ht, hlists, hlists', rfl, rfl⟩ := h
  exact ⟨Directory.held_perm ((hlists.perm hlists').filter _), m, hs, ht⟩

/-- Searching a directory finds the same entries on both sides, in whatever order. -/
theorem agrees_find [Allocator] {names : List String} (hnames : site.Admits names) (name : String)
    (kind : EntryKind) :
    P.Agrees Q (P.Same Q) (ofProgram (Directory.find (site.path names) name kind))
      (ofProgram (Directory.find (site.path names) name kind)) (P.Found Q names name kind) := by
  refine agrees_ofProgram ?_
  rintro s t ⟨m, hs, ht⟩
  obtain ⟨entries, s', hlists, hrun, hs'⟩ := Directory.run_find P hs hnames name kind
  obtain ⟨entries', t', hlists', hrun', ht'⟩ := Directory.run_find Q ht hnames name kind
  rw [hrun, hrun']
  exact ⟨m, entries, entries', hs', ht', hlists, hlists', rfl, rfl⟩

/-- The check for an empty path asks nothing of a volume. -/
theorem agrees_requireDirectory (dir : String) :
    P.Agrees Q (P.Same Q) (Directory.requireDirectory dir) (Directory.requireDirectory dir)
      (P.Equal Q) :=
  .ite (fun _ => agrees_throw fun _ _ hst => hst) fun _ => agrees_pure fun _ _ hst => ⟨rfl, hst⟩

/-- **An enumeration collects the same on both volumes,** as far as the order of the entries does
not matter. -/
theorem agrees_collect {γ : Type} (hdir : site.IsPath dir) (visit : γ → Entry → γ) (start : γ)
    {R : γ → γ → Prop} (hR : ∀ entries entries' : List Entry, entries.Perm entries' →
      R (entries.foldl visit start) (entries'.foldl visit start)) :
    P.Agrees Q (P.Same Q) (Directory.collect dir visit start) (Directory.collect dir visit start)
      fun a b s t => R a b ∧ P.Same Q s t := by
  obtain ⟨names, hnames, rfl⟩ := hdir
  rintro s t ⟨m, hs, ht⟩
  by_cases hnode : m (site.path names) = some .directory
  · obtain ⟨entries, s', hlists, hrun, hs'⟩ := Directory.run_enumerate_directory P hs hnames hnode
      (fun acc entry => .yield (visit acc entry)) start
    obtain ⟨entries', t', hlists', hrun', ht'⟩ := Directory.run_enumerate_directory Q ht hnames
      hnode (fun acc entry => .yield (visit acc entry)) start
    rw [foldUntil_yield] at hrun hrun'
    simp only [Directory.collect, runOn_bind, runOn_ofProgram, hrun, hrun', runOn_pure]
    exact .ok ⟨hR _ _ (hlists.perm hlists'), m, hs', ht'⟩
  · obtain ⟨e, s', hrun, hs'⟩ := Directory.run_enumerate_other P hs hnames hnode
      (fun acc entry => .yield (visit acc entry)) start
    obtain ⟨e', t', hrun', ht'⟩ := Directory.run_enumerate_other Q ht hnames hnode
      (fun acc entry => .yield (visit acc entry)) start
    simp only [Directory.collect, runOn_bind, runOn_ofProgram, hrun, hrun', runOn_throw]
    exact .error ⟨m, hs', ht'⟩

/-- A listing shows the same entries on both sides, in whatever order. -/
theorem agrees_list (hdir : site.IsPath dir) :
    P.Agrees Q (P.Same Q) (Directory.list dir) (Directory.list dir)
      fun entries entries' s t => entries.Perm entries' ∧ P.Same Q s t := by
  refine (agrees_requireDirectory dir).andThen fun _ => agrees_collect hdir _ _ ?_
  intro entries entries' hperm
  rw [foldl_concat, foldl_concat]
  exact hperm.append_left []

/-- A greatest number does not depend on the order the entries come in. -/
theorem agrees_lastHistoryNumber (hdir : site.IsPath dir) (stem : String) :
    P.Agrees Q (P.Same Q) (Directory.lastHistoryNumber dir stem)
      (Directory.lastHistoryNumber dir stem) (P.Equal Q) := by
  have hcollect : P.Agrees Q (P.Same Q)
      (Directory.collect dir (fun highest entry =>
        max highest ((Directory.historyNumber? stem entry.name).getD 0)) 0)
      (Directory.collect dir (fun highest entry =>
        max highest ((Directory.historyNumber? stem entry.name).getD 0)) 0) (P.Equal Q) := by
    refine agrees_collect hdir _ _ fun entries entries' hperm => ?_
    refine hperm.foldl_eq' (fun x _ y _ highest => ?_) 0
    omega
  exact Agrees.ite (fun _ => agrees_throw_bind fun _ _ hst => hst) fun _ => hcollect

/-- Whether a match is unique does not depend on the order the entries come in. -/
theorem agrees_uniqueSize [Allocator] (hdir : site.IsPath dir) (name : String) (kind : EntryKind) :
    P.Agrees Q (P.Same Q) (Directory.uniqueSize dir name kind)
      (Directory.uniqueSize dir name kind) (P.Equal Q) := by
  refine (agrees_requireDirectory dir).andThen fun _ => ?_
  obtain ⟨names, hnames, rfl⟩ := hdir
  refine (agrees_find hnames name kind).bind fun found found' => ?_
  intro s t hfound
  obtain ⟨hperm, hst⟩ := hfound.perm
  -- What is the only entry found on one volume is the only one on the other.
  cases found with
  | nil =>
    rw [List.nil_perm.1 hperm]
    exact .error hst
  | cons entry rest =>
    cases rest with
    | nil =>
      rw [← List.singleton_perm.1 hperm]
      have hequal : P.Equal Q entry.size entry.size s t := ⟨rfl, hst⟩
      exact .ok hequal
    | cons second rest =>
      have hlength := hperm.length_eq
      match found', hlength with
      | _ :: _ :: _, _ => exact .error hst

/-! ### Making and removing -/

/-- One stage of a path is made, or found to stand, on both sides. -/
theorem agrees_makeStage (hpath : site.IsPath path) :
    P.Agrees Q (P.Same Q) (Directory.makeStage path) (Directory.makeStage path) (P.Equal Q) := by
  obtain ⟨names, hnames, rfl⟩ := hpath
  refine (agrees_attempt fun s t hst => meets_stat P Q hnames hst).bind fun answer answer' => ?_
  intro s t hst
  cases hst with
  | ok h =>
    obtain ⟨rfl, hst⟩ := h
    exact Agrees.ite (fun _ => agrees_throw fun _ _ hst => hst)
      (fun _ => agrees_pure fun _ _ hst => ⟨rfl, hst⟩) s t hst
  | error hst => exact agrees_request (fun s t hst => meets_mkdir P Q hnames hst) s t hst

/-- Making a path makes the same stages on both sides. -/
theorem agrees_makePath (hpath : site.IsPath path) (recursive : Bool) :
    P.Agrees Q (P.Same Q) (Directory.makePath path recursive site.config)
      (Directory.makePath path recursive site.config) (P.Equal Q) := by
  have hstages : ∀ stages : List String, (∀ stage ∈ stages, site.IsPath stage) →
      P.Agrees Q (P.Same Q) (stages.forM Directory.makeStage)
        (stages.forM Directory.makeStage) (P.Equal Q) := by
    intro stages hall
    induction stages with
    | nil => exact agrees_pure fun _ _ hst => ⟨rfl, hst⟩
    | cons stage stages ih =>
      obtain ⟨hstage, hall⟩ := List.forall_mem_cons.1 hall
      exact (agrees_makeStage hstage).andThen fun _ => ih hall
  have htarget : ∀ stage ∈ (if recursive then Path.stages (Path.trimSeparators path)
      else [Path.trimSeparators path]), site.IsPath stage := by
    rw [hpath.trimSeparators]
    intro stage hstage
    split at hstage
    · exact hpath.of_mem_stages hstage
    · rw [List.mem_singleton.1 hstage]
      exact hpath
  have hstat : P.Agrees Q (P.Same Q) (attempt (.stat path)) (attempt (.stat path))
      (Went (P.Equal Q) (P.Same Q)) := by
    obtain ⟨names, hnames, rfl⟩ := hpath
    exact agrees_attempt fun s t hst => meets_stat P Q hnames hst
  -- The path is clean, so it is the one that is looked at and made.
  rw [Directory.makePath, hpath.normalize, ofExcept_ok_bind]
  refine hstat.bind fun answer answer' => ?_
  intro s t hst
  cases hst with
  | ok h =>
    obtain ⟨rfl, hst⟩ := h
    exact Agrees.ite (fun _ => agrees_throw fun _ _ hst => hst)
      (fun _ => agrees_pure fun _ _ hst => ⟨rfl, hst⟩) s t hst
  | error hst =>
    exact Agrees.ite (fun _ => agrees_throw_bind fun _ _ hst => hst)
      (fun _ => hstages _ htarget) s t hst

/-- A bulk delete removes the same files when every match can be removed. -/
theorem agrees_deleteMatching [Allocator] (hdir : site.IsPath dir) (name : String) :
    P.Agrees Q (P.Same Q) (Directory.deleteMatching dir name site.config)
      (Directory.deleteMatching dir name site.config) (P.Equal Q) := by
  refine (agrees_requireDirectory dir).andThen fun _ => ?_
  obtain ⟨names, hnames, rfl⟩ := hdir
  refine (agrees_find hnames name .file).bind fun found found' => ?_
  rintro s t ⟨m, entries, entries', hs, ht, hlists, hlists', rfl, rfl⟩
  have hremoves : ∀ {entries : List Entry}, site.Lists m names entries →
      ((Directory.held (entries.filter (Directory.isMatch name .file))).map Entry.name).Nodup ∧
        ∀ entry ∈ Directory.held (entries.filter (Directory.isMatch name .file)),
          Directory.IsFileOf site m names entry := fun hlists =>
    ⟨(hlists.nodup_matches name .file).sublist ((Directory.held_sublist _).map _),
      fun entry hentry =>
        hlists.isFileOf_matches name entry ((Directory.held_sublist _).subset hentry)⟩
  obtain ⟨s', hrun, hs'⟩ :=
    Directory.run_deleteEach P hs (hremoves hlists).1 (hremoves hlists).2 0
  obtain ⟨t', hrun', ht'⟩ :=
    Directory.run_deleteEach Q ht (hremoves hlists').1 (hremoves hlists').2 0
  have hperm := Directory.held_perm ((hlists.perm hlists').filter (Directory.isMatch name .file))
  rw [hrun, hrun', hperm.length_eq]
  refine .ok ⟨rfl, _, hs', ?_⟩
  rw [m.without_congr fun p => (hperm.map fun entry => site.path (names ++ [entry.name])).mem_iff]
  exact ht'

end Directories
end Presentation

/-! ### Requests -/

namespace Request

/-- The name that is resolved in the directory of the request. -/
def name? : Request → Option String
  | readIn _ name _ => some name
  | writeIn _ name _ => some name
  | appendIn _ name _ => some name
  | deleteIn _ name => some name
  | sizeIn _ name => some name
  | digestIn _ name _ _ => some name
  | make _ name => some name
  | _ => none

/-- How far into a file the request reaches, as far as the request says so. -/
def reach : Request → Nat
  | file (.read _ offset buffer) => offset + buffer.length
  | file (.write _ data) => data.length
  | file (.append _ data) => data.length
  | readIn _ _ buffer => buffer.length
  | writeIn _ _ data => data.length
  | appendIn _ _ data => data.length
  | digest _ size _ => size
  | digestIn _ _ size _ => size
  | digestInto _ size _ _ => size
  | _ => 0

end Request

/-- The request keeps to the paths of the site, and to the offsets of the host. -/
structure Site.Allows (site : Site) (request : Request) : Prop where
  path : site.IsPath request.path
  target : ∀ name ∈ request.name?, ∀ path,
    Path.resolve request.path name site.config = .ok path → site.IsPath path
  reach_le : request.reach ≤ HostSystem.maxOffset

/-- Responses that differ at most in the order of entries. -/
inductive Response.Alike : Response → Response → Prop where
  | refl (response : Response) : Alike response response
  | entries {entries entries' : List Entry} (h : entries.Perm entries') :
      Alike (.entries entries) (.entries entries')

namespace Presentation

variable {site : Site} {σ : Type u} {τ : Type v} {A : Backend σ} {B : Backend τ}
  {P : Presentation site A} {Q : Presentation site B}

/-- The responses are alike, and the volumes show the same map. -/
def Alike (P : Presentation site A) (Q : Presentation site B) (response response' : Response)
    (s : σ) (t : τ) : Prop :=
  response.Alike response' ∧ P.Same Q s t

/-- An operation that answers the same is a request that does. -/
theorem Agrees.respond {α : Type} {p : Operation α} (f : α → Response)
    (hp : P.Agrees Q (P.Same Q) p p (P.Equal Q)) :
    P.Agrees Q (P.Same Q) (f <$> p) (f <$> p) (P.Alike Q) := by
  refine hp.map ?_
  rintro a _ s t ⟨rfl, hst⟩
  exact ⟨.refl _, hst⟩

/-- **A request agrees,** whichever operation it asks for. -/
theorem agrees_operation [Allocator] {request : Request} (h : site.Allows request) :
    P.Agrees Q (P.Same Q) (request.operation site.config) (request.operation site.config)
      (P.Alike Q) := by
  obtain ⟨hpath, htarget, hreach⟩ := h
  cases request with
  | file request =>
    cases request with
    | read path offset buffer => exact (agrees_read hpath offset buffer hreach).respond _
    | write path data => exact (agrees_write hpath hreach _).respond _
    | append path data => exact (agrees_append hpath hreach).respond _
    | delete path => exact (agrees_delete hpath).respond _
    | size path => exact (agrees_size hpath).respond _
  | readIn dir name buffer =>
    refine Agrees.respond _ (agrees_inDirectory (htarget name rfl) fun path hpath => ?_)
    exact agrees_read hpath 0 buffer (by rw [Nat.zero_add]; exact hreach)
  | writeIn dir name data =>
    refine Agrees.respond _ (agrees_inDirectory (htarget name rfl) fun path hpath => ?_)
    exact agrees_write hpath hreach _
  | appendIn dir name data =>
    refine Agrees.respond _ (agrees_inDirectory (htarget name rfl) fun path hpath => ?_)
    exact agrees_append hpath hreach
  | deleteIn dir name =>
    exact Agrees.respond _ (agrees_inDirectory (htarget name rfl) fun path => agrees_delete)
  | sizeIn dir name =>
    exact Agrees.respond _ (agrees_inDirectory (htarget name rfl) fun path => agrees_size)
  | digest path size algorithm => exact (agrees_ofFile hpath hreach algorithm _).respond _
  | digestIn dir name size algorithm =>
    refine Agrees.respond _ (agrees_inDirectory (htarget name rfl) fun path hpath => ?_)
    exact agrees_ofFile hpath hreach algorithm _
  | digestInto path size algorithm cell =>
    intro s t hst
    rw [runOn_digestInto, runOn_digestInto]
    exact (agrees_ofFile hpath hreach algorithm _).respond _ s t hst
  | find dir name kind =>
    obtain ⟨names, hnames, hdir⟩ := hpath
    obtain rfl : dir = site.path names := hdir
    refine (agrees_find hnames name kind).map fun found found' s t hfound => ?_
    exact ⟨.entries hfound.perm.1, hfound.perm.2⟩
  | uniqueSize dir name kind => exact (agrees_uniqueSize hpath name kind).respond _
  | list dir =>
    refine (agrees_list hpath).map fun entries entries' s t hentries => ?_
    exact ⟨.entries hentries.1, hentries.2⟩
  | lastHistoryNumber dir stem => exact (agrees_lastHistoryNumber hpath stem).respond _
  | makePath path recursive => exact (agrees_makePath hpath recursive).respond _
  | make dir name =>
    refine Agrees.respond _ (agrees_inDirectory (htarget name rfl) fun path hpath => ?_)
    exact agrees_makePath hpath false
  | deleteMatching dir name => exact (agrees_deleteMatching hpath name).respond _

end Presentation
end FlashVolume
