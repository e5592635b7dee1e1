import FlashVolume.Config.Setting
import FlashVolume.Config.Yaml.Token
import FlashVolume.Decimal.Reading
/-!
# Nodes of YAML

Section 10.5 of the specification: what `load` reads in `fsu.yaml` and `fsu.yml`.

A node is a scalar, a list or a mapping, or an alias, which is the node that has its anchor. In a
mapping keys and values take turns; only a text names an entry, and of two values for one name the
later counts. A node that is missing is null, or an empty text if it has a tag or an anchor.

A scalar in quotes or a block is a text. A plain scalar is null, a truth value, an integer, a number
or a text by its spelling, unless it has a tag. The tags `!!bool`, `!!int`, `!!float` and `!!null`
ask for one kind; a scalar of another kind is then *void*, and so is an alias inside the node that
it names. A void node is null, but as a key it is passed over. A node with a number that has a name
of its own, such as `.inf`, is *unfit* for a setting.
-/

namespace FlashVolume
namespace Yaml

/-- A node. -/
inductive Node where
  /-- What is void. -/
  | void
  /-- A setting, or what is unfit for one. -/
  | content (setting : Option Setting)
deriving Inhabited

namespace Node

/-- The node of a text. -/
def text (s : String) : Node :=
  content (some (.text s))

/-- The node of what is missing. -/
def null : Node :=
  content (some .null)

/-- The node as a setting, if it is fit for one. -/
def setting? : Node → Option Setting
  | void => some .null
  | content setting => setting

/-- The entry that a node names. -/
def name? : Node → Option String
  | content (some (.text name)) => some name
  | _ => none

/-- The node of a list. -/
def ofItems (items : List Node) : Node :=
  content ((items.mapM setting?).map .list)

/-- The pairs of nodes that take turns as keys and values. -/
def pairs : List Node → List (Node × Node)
  | [] => []
  | void :: rest => pairs rest
  | key :: value :: rest => (key, value) :: pairs rest
  | [_] => []

/-- **Keys and values take turns,** where nothing is void. -/
theorem pairs_flatMap {entries : List (Node × Node)} (h : ∀ e ∈ entries, e.1 ≠ void) :
    pairs (entries.flatMap fun (key, value) => [key, value]) = entries := by
  induction entries with
  | nil => rfl
  | cons entry entries ih =>
    obtain ⟨key, value⟩ := entry
    have hkey : key ≠ void := h (key, value) (by simp)
    have hrest := ih fun e he => h e (by simp [he])
    cases key with
    | void => contradiction
    | content setting => simp [pairs, hrest]

/-- The entry that a key and a value make, if the key names one. -/
def entry? : Node × Node → Option (String × Node)
  | (key, value) => key.name?.map (·, value)

/-- An entry of a setting, if its node is fit for one. -/
def settingEntry? : String × Node → Option (String × Setting)
  | (name, node) => node.setting?.map (name, ·)

/-- The node of a mapping. -/
def ofTurns (nodes : List Node) : Node :=
  let entries := Setting.lastEntries ((pairs nodes).filterMap entry?)
  content ((entries.mapM settingEntry?).map .table)

end Node

/-! ## Scalars -/

/-- The value of digits in a base, with an optional sign. -/
def basedInt? (base : Nat) (cs : List Char) : Option Int :=
  let (negative, ds) := Binary64.splitSign cs
  if ds.isEmpty then none
  else do
    let n ← Text.valueIn? base ds
    if n ≤ Word.maxSigned64 + (if negative then 1 else 0) then
      return if negative then -(n : Int) else n
    else none

/-- The integer that a plain scalar writes. -/
def int? (s : String) : Option Int :=
  match s.toList with
  | '0' :: 'x' :: ds => (basedInt? 16 ds).or (Text.signed64? s)
  | '0' :: 'o' :: ds => (basedInt? 8 ds).or (Text.signed64? s)
  | '+' :: ds => Text.signed64? (String.ofList ds)
  | _ => Text.signed64? s

/-- The names of numbers that are unfit for a setting. -/
def numberNames : List String :=
  [".inf", ".Inf", ".INF", "+.inf", "+.Inf", "+.INF", "-.inf", "-.Inf", "-.INF", ".nan", ".NAN"]

/-- The node of a number. -/
def number? (s : String) : Option Node :=
  if s ∈ numberNames then some (.content none)
  else (Binary64.ofText? s).map fun x => .content (some (.float x))

/-- The node of a plain scalar without a tag. -/
def ofPlain (s : String) : Node :=
  if s = "~" ∨ s = "null" then .null
  else if s = "true" then .content (some (.bool true))
  else if s = "false" then .content (some (.bool false))
  else
    match int? s, number? s with
    | some n, _ => .content (some (.int n))
    | none, some node => node
    | none, none => .text s

/-- The node of a plain scalar with a tag. -/
def ofTagged (tag : Tag) (s : String) : Node :=
  if tag.handle ≠ "!!" then .text s
  else if tag.name = "bool" then
    if s = "true" then .content (some (.bool true))
    else if s = "false" then .content (some (.bool false))
    else .void
  else if tag.name = "int" then (Text.signed64? s).elim .void fun n => .content (some (.int n))
  else if tag.name = "float" then (number? s).getD .void
  else if tag.name = "null" then if s = "~" ∨ s = "null" then .null else .void
  else .text s

/-- The node of a scalar. -/
def ofScalar (isPlain : Bool) (tag : Option Tag) (s : String) : Node :=
  if ¬ isPlain then .text s
  else
    match tag with
    | some tag => ofTagged tag s
    | none => ofPlain s

/-! ## Anchors -/

/-- The anchors so far, each with its node once that is complete. -/
abbrev Anchors := List (String × Option Node)

/-- The node of an alias, if its anchor is known. -/
def Anchors.node? (anchors : Anchors) (name : String) : Option Node :=
  (anchors.reverse.lookup name).map (·.getD .void)

/-- **Of the anchors with one name the last counts.** -/
theorem Anchors.node?_append (anchors : Anchors) (name : String) (node : Node) :
    Anchors.node? (anchors ++ [(name, some node)]) name = some node := by
  simp [Anchors.node?]

/-- **An alias inside the node that it names is void.** -/
theorem Anchors.node?_append_none (anchors : Anchors) (name : String) :
    Anchors.node? (anchors ++ [(name, none)]) name = some .void := by
  simp [Anchors.node?]

/-- An anchor says nothing about other names. -/
theorem Anchors.node?_append_of_ne (anchors : Anchors) {name other : String} (h : other ≠ name)
    (node : Option Node) :
    Anchors.node? (anchors ++ [(name, node)]) other = anchors.node? other := by
  simp [Anchors.node?, List.lookup_cons, beq_eq_false_iff_ne.2 h]

/-- Gives its node to the anchor at a place. -/
def Anchors.complete (anchors : Anchors) (place : Option Nat) (node : Node) : Anchors :=
  match place with
  | some place => anchors.modify place fun (name, _) => (name, some node)
  | none => anchors

/-- Giving its node to an anchor keeps the names. -/
theorem Anchors.names_complete (anchors : Anchors) (place : Option Nat) (node : Node) :
    (anchors.complete place node).map (·.1) = List.map (·.1) anchors := by
  cases place with
  | none => rfl
  | some place =>
    refine List.ext_getElem? fun i => ?_
    rw [Anchors.complete, List.getElem?_map, List.getElem?_map, List.getElem?_modify]
    split <;> simp [Function.comp_def]

/-- What is left to read, and the anchors so far. -/
structure Reader where
  tokens : List Token
  anchors : Anchors := []

/-- A reader stands behind another if its tokens are the last of those, and it knows the anchors
that were known. -/
instance : Place Reader where
  IsBehind r q := q.tokens <:+ r.tokens ∧ r.anchors.map (·.1) <+: q.anchors.map (·.1)
  refl r := ⟨List.suffix_refl r.tokens, List.prefix_rfl⟩
  trans := by
    rintro _ _ _ ⟨htokens, hanchors⟩ ⟨htokens', hanchors'⟩
    exact ⟨htokens'.trans htokens, hanchors.trans hanchors'⟩

namespace Reader

/-- Whether one of some tokens comes next. -/
def isAt (r : Reader) (tokens : List Token) : Bool :=
  r.tokens.head?.any tokens.contains

/-- What is left behind the next token. -/
def next (r : Reader) : Reader :=
  { r with tokens := r.tokens.tail }

/-- A token is taken, and no anchor forgotten. -/
theorem next_behind (r : Reader) : Place.IsBehind r r.next :=
  ⟨List.tail_suffix r.tokens, List.prefix_rfl⟩

/-- Reads a tag, if there is one. -/
def tag (r : Reader) : Option Tag × Reader :=
  match r.tokens with
  | .tag tag :: tokens => (some tag, { r with tokens })
  | _ => (none, r)

/-- A tag is taken if it is there. -/
theorem tag_behind (r : Reader) : Place.IsBehind r r.tag.2 := by
  unfold tag
  split
  case h_1 tag tokens heq => exact ⟨heq ▸ List.suffix_cons _ tokens, List.prefix_rfl⟩
  case h_2 => exact Place.refl r

/-- Reads an anchor, if there is one, and answers its place. -/
def anchor (r : Reader) : Option Nat × Reader :=
  match r.tokens with
  | .anchor name :: tokens => (some r.anchors.length, ⟨tokens, r.anchors ++ [(name, none)]⟩)
  | _ => (none, r)

/-- An anchor is taken if it is there, and then known. -/
theorem anchor_behind (r : Reader) : Place.IsBehind r r.anchor.2 := by
  unfold anchor
  split
  case h_1 name tokens heq =>
    refine ⟨heq ▸ List.suffix_cons _ tokens, ?_⟩
    rw [List.map_append]
    exact List.prefix_append ..
  case h_2 => exact Place.refl r

/-- Reads a tag and an anchor in any order, if there are any. -/
def properties (r : Reader) : Option Tag × Option Nat × Reader :=
  match r.tag with
  | (some tag, r) => (some tag, r.anchor)
  | (none, r) =>
    match r.anchor with
    | (some place, r) =>
      let (tag, r) := r.tag
      (tag, some place, r)
    | (none, r) => (none, none, r)

/-- A tag and an anchor are taken in any order. -/
theorem properties_behind (r : Reader) : Place.IsBehind r r.properties.2.2 := by
  have htag := r.tag_behind
  unfold properties
  split
  case h_1 tag q heq =>
    rw [heq] at htag
    exact Place.trans htag q.anchor_behind
  case h_2 q heq =>
    rw [heq] at htag
    have hanchor := Place.trans htag q.anchor_behind
    dsimp only
    split
    case h_1 place p heq =>
      rw [heq] at hanchor
      exact Place.trans hanchor p.tag_behind
    case h_2 p heq =>
      rw [heq] at hanchor
      exact hanchor

/-- The part of a text where a node stands, which says what kind of node it can be. -/
inductive Site where
  /-- Between brackets there are no blocks. -/
  | flow
  | block
  /-- An entry of a block mapping may be a sequence that is not indented further. -/
  | entry
deriving DecidableEq, Repr

mutual

/-- Reads a node, and answers it with what follows. -/
def node? : Nat → Site → Reader → Option (Node × Reader)
  | 0, _, _ => none
  | fuel + 1, site, r =>
    match r.tokens with
    | .alias name :: _ => (r.anchors.node? name).map (·, r.next)
    | _ => do
      let (tag, place, r) := r.properties
      let (node, r) ← content? fuel site tag (tag.isSome || place.isSome) r
      return (node, { r with anchors := r.anchors.complete place node })
termination_by structural fuel => fuel

/-- Reads a node behind its tag and its anchor, and answers it with what follows. If it may be
empty, it need not be there. -/
def content? : Nat → Site → Option Tag → Bool → Reader → Option (Node × Reader)
  | 0, _, _, _, _ => none
  | fuel + 1, site, tag, mayBeEmpty, r =>
    if site = .entry ∧ r.isAt [.item] then
      (dashed? fuel r).map fun (items, r) => (.ofItems items, r)
    else if site ≠ .flow ∧ r.isAt [.sequence] then
      (sequence? fuel r.next).map fun (items, r) => (.ofItems items, r)
    else if site ≠ .flow ∧ r.isAt [.mapping] then
      (mapping? fuel r.next).map fun (turns, r) => (.ofTurns turns, r)
    else
      match r.tokens with
      | .scalar isPlain text :: _ => some (ofScalar isPlain tag text, r.next)
      | .openList :: _ => (flowList? fuel true r.next).map fun (items, r) => (.ofItems items, r)
      | .openMap :: _ => (flowMap? fuel true r.next).map fun (turns, r) => (.ofTurns turns, r)
      | _ => if mayBeEmpty then some (ofScalar true tag "", r) else none
termination_by structural fuel => fuel

/-- Reads a node unless one of some tokens comes next, and answers it with what follows. -/
def nodeUnless? : Nat → List Token → Site → Reader → Option (Node × Reader)
  | 0, _, _, _ => none
  | fuel + 1, tokens, site, r => if r.isAt tokens then some (.null, r) else node? fuel site r
termination_by structural fuel => fuel

/-- Reads the items of a block sequence up to its end, and answers them with what follows. -/
def sequence? : Nat → Reader → Option (List Node × Reader)
  | 0, _ => none
  | fuel + 1, r =>
    if r.isAt [.close] then some ([], r.next)
    else if r.isAt [.item] then do
      let (node, r) ← nodeUnless? fuel [.item, .close] .block r.next
      let (nodes, r) ← sequence? fuel r
      return (node :: nodes, r)
    else none
termination_by structural fuel => fuel

/-- Reads items that are not indented further than their mapping, and answers them with what
follows. -/
def dashed? : Nat → Reader → Option (List Node × Reader)
  | 0, _ => none
  | fuel + 1, r =>
    if r.isAt [.item] then do
      let (node, r) ← nodeUnless? fuel [.item, .key, .value, .close] .block r.next
      let (nodes, r) ← dashed? fuel r
      return (node :: nodes, r)
    else some ([], r)
termination_by structural fuel => fuel

/-- Reads the keys and values of a block mapping up to its end, and answers them with what
follows. -/
def mapping? : Nat → Reader → Option (List Node × Reader)
  | 0, _ => none
  | fuel + 1, r =>
    if r.isAt [.close] then some ([], r.next)
    else if r.isAt [.key, .value] then do
      let ends := [.key, .value, .close]
      let (key, r) ← if r.isAt [.key] then nodeUnless? fuel ends .entry r.next else some (.null, r)
      let (value, r) ← if r.isAt [.value] then nodeUnless? fuel ends .entry r.next
        else some (.null, r)
      let (turns, r) ← mapping? fuel r
      return (key :: value :: turns, r)
    else none
termination_by structural fuel => fuel

/-- Reads the items of a list up to its closing bracket, and answers them with what follows. -/
def flowList? : Nat → Bool → Reader → Option (List Node × Reader)
  | 0, _, _ => none
  | fuel + 1, isFirst, r =>
    if r.isAt [.closeList] then some ([], r.next)
    else if ¬ isFirst ∧ ¬ r.isAt [.comma] then none
    else
      let r := if isFirst then r else r.next
      if r.isAt [.closeList] then some ([], r.next)
      else do
        let (node, r) ← if r.isAt [.key] then pair? fuel r.next else node? fuel .flow r
        let (nodes, r) ← flowList? fuel false r
        return (node :: nodes, r)
termination_by structural fuel => fuel

/-- Reads an item of a list that is a mapping with one entry, and answers it with what follows. A
mark in place of the key is taken for it. -/
def pair? : Nat → Reader → Option (Node × Reader)
  | 0, _ => none
  | fuel + 1, r => do
    let (key, r) ← if r.isAt [.value, .comma, .closeList] then some (.null, r.next)
      else node? fuel .flow r
    let (value, r) ← if r.isAt [.value] then nodeUnless? fuel [.comma, .closeList] .flow r.next
      else some (.null, r)
    return (.ofTurns [key, value], r)
termination_by structural fuel => fuel

/-- Reads the keys and values of a mapping up to its closing brace, and answers them with what
follows. -/
def flowMap? : Nat → Bool → Reader → Option (List Node × Reader)
  | 0, _, _ => none
  | fuel + 1, isFirst, r =>
    if r.isAt [.closeMap] then some ([], r.next)
    else if ¬ isFirst ∧ ¬ r.isAt [.comma] then none
    else
      let r := if isFirst then r else r.next
      let ends := [.comma, .closeMap]
      if r.isAt [.closeMap] then some ([], r.next)
      else do
        let (key, hasValue, r) ←
          if r.isAt [.key] then
            (nodeUnless? fuel (.value :: ends) .flow r.next).map fun (key, r) => (key, true, r)
          else if r.isAt [.value] then some (.null, true, r)
          else (node? fuel .flow r).map fun (key, r) => (key, false, r)
        let (value, r) ← if hasValue ∧ r.isAt [.value] then nodeUnless? fuel ends .flow r.next
          else some (.null, r)
        let (turns, r) ← flowMap? fuel false r
        return (key :: value :: turns, r)
termination_by structural fuel => fuel

end

mutual

/-- **A node is read from the next token on,** and no anchor is forgotten. -/
theorem node?_leaves (fuel : Nat) (site : Site) (r : Reader) :
    Leaves Prod.snd r (node? fuel site r) := by
  cases fuel with
  | zero => exact leaves_none
  | succ fuel =>
    unfold node?
    split
    case h_1 => exact leaves_map fun _ => r.next_behind
    case h_2 =>
      refine .behind ?_ r.properties_behind
      refine (content?_leaves fuel site _ _ _).bind fun ⟨node, q⟩ => leaves_some ⟨?_, ?_⟩
      · exact List.suffix_refl q.tokens
      · exact (Anchors.names_complete q.anchors _ node).symm ▸ List.prefix_rfl

/-- What a node holds is read from the token behind its tag and its anchor. -/
theorem content?_leaves (fuel : Nat) (site : Site) (tag : Option Tag) (mayBeEmpty : Bool)
    (r : Reader) : Leaves Prod.snd r (content? fuel site tag mayBeEmpty r) := by
  cases fuel with
  | zero => exact leaves_none
  | succ fuel =>
    refine .ite ?_ (.ite ?_ (.ite ?_ ?_))
    · exact (dashed?_leaves fuel r).map fun _ => rfl
    · exact ((sequence?_leaves fuel _).behind r.next_behind).map fun _ => rfl
    · exact ((mapping?_leaves fuel _).behind r.next_behind).map fun _ => rfl
    · split
      case h_1 => exact leaves_some r.next_behind
      case h_2 => exact ((flowList?_leaves fuel true _).behind r.next_behind).map fun _ => rfl
      case h_3 => exact ((flowMap?_leaves fuel true _).behind r.next_behind).map fun _ => rfl
      case h_4 => exact .ite (leaves_some (Place.refl r)) leaves_none

/-- A node that is missing takes no token. -/
theorem nodeUnless?_leaves (fuel : Nat) (tokens : List Token) (site : Site) (r : Reader) :
    Leaves Prod.snd r (nodeUnless? fuel tokens site r) := by
  cases fuel with
  | zero => exact leaves_none
  | succ fuel => exact .ite (leaves_some (Place.refl r)) (node?_leaves fuel site r)

/-- The items of a block are read up to its end. -/
theorem sequence?_leaves (fuel : Nat) (r : Reader) : Leaves Prod.snd r (sequence? fuel r) := by
  cases fuel with
  | zero => exact leaves_none
  | succ fuel =>
    refine .ite (leaves_some r.next_behind) (.ite ?_ leaves_none)
    refine ((nodeUnless?_leaves fuel _ _ _).behind r.next_behind).bind fun ⟨_, r⟩ => ?_
    exact (sequence?_leaves fuel r).bind fun _ => leaves_some (Place.refl _)

/-- The items that are not indented are read as far as there are dashes. -/
theorem dashed?_leaves (fuel : Nat) (r : Reader) : Leaves Prod.snd r (dashed? fuel r) := by
  cases fuel with
  | zero => exact leaves_none
  | succ fuel =>
    refine .ite ?_ (leaves_some (Place.refl r))
    refine ((nodeUnless?_leaves fuel _ _ _).behind r.next_behind).bind fun ⟨_, r⟩ => ?_
    exact (dashed?_leaves fuel r).bind fun _ => leaves_some (Place.refl _)

/-- The keys and values of a block are read up to its end. -/
theorem mapping?_leaves (fuel : Nat) (r : Reader) : Leaves Prod.snd r (mapping? fuel r) := by
  cases fuel with
  | zero => exact leaves_none
  | succ fuel =>
    have hnode := fun q : Reader =>
      (nodeUnless?_leaves fuel [.key, .value, .close] .entry _).behind q.next_behind
    have hturns : ∀ key value (q : Reader), Leaves Prod.snd q
        ((mapping? fuel q).bind fun (turns, q) => some (key :: value :: turns, q)) :=
      fun _ _ q => (mapping?_leaves fuel q).bind fun _ => leaves_some (Place.refl _)
    refine .ite (leaves_some r.next_behind) (.ite ?_ leaves_none)
    refine .ite ((hnode r).bind fun ⟨key, q⟩ => ?_) ?_
    · exact .ite ((hnode q).bind fun ⟨value, q⟩ => hturns key value q) (hturns key .null q)
    · exact .ite ((hnode r).bind fun ⟨value, q⟩ => hturns .null value q) (hturns .null .null r)

/-- The items of a list are read up to its closing bracket. -/
theorem flowList?_leaves (fuel : Nat) (isFirst : Bool) (r : Reader) :
    Leaves Prod.snd r (flowList? fuel isFirst r) := by
  cases fuel with
  | zero => exact leaves_none
  | succ fuel =>
    have hstart : Place.IsBehind r (if isFirst then r else r.next) := by
      split
      · exact Place.refl r
      · exact r.next_behind
    have hmore : ∀ node (q : Reader), Leaves Prod.snd q
        ((flowList? fuel false q).bind fun (nodes, q) => some (node :: nodes, q)) :=
      fun _ q => (flowList?_leaves fuel false q).bind fun _ => leaves_some (Place.refl _)
    refine .ite (leaves_some r.next_behind) (.ite leaves_none (.behind ?_ hstart))
    refine .ite (leaves_some (next_behind _)) (.ite ?_ ?_)
    · exact ((pair?_leaves fuel _).behind (next_behind _)).bind fun ⟨node, q⟩ => hmore node q
    · exact (node?_leaves fuel .flow _).bind fun ⟨node, q⟩ => hmore node q

/-- A key with its value is read as one item. -/
theorem pair?_leaves (fuel : Nat) (r : Reader) : Leaves Prod.snd r (pair? fuel r) := by
  cases fuel with
  | zero => exact leaves_none
  | succ fuel =>
    have hvalue : ∀ key (q : Reader), Leaves Prod.snd q (if q.isAt [.value] then
        (nodeUnless? fuel [.comma, .closeList] .flow q.next).bind fun (value, q) =>
          some (Node.ofTurns [key, value], q)
        else some (Node.ofTurns [key, .null], q)) := by
      intro key q
      refine .ite ?_ (leaves_some (Place.refl q))
      exact ((nodeUnless?_leaves fuel _ _ _).behind q.next_behind).bind fun _ =>
        leaves_some (Place.refl _)
    refine .ite ((hvalue .null r.next).behind r.next_behind) ?_
    exact (node?_leaves fuel .flow r).bind fun ⟨key, q⟩ => hvalue key q

/-- The keys and values of a mapping are read up to its closing brace. -/
theorem flowMap?_leaves (fuel : Nat) (isFirst : Bool) (r : Reader) :
    Leaves Prod.snd r (flowMap? fuel isFirst r) := by
  cases fuel with
  | zero => exact leaves_none
  | succ fuel =>
    have hstart : Place.IsBehind r (if isFirst then r else r.next) := by
      split
      · exact Place.refl r
      · exact r.next_behind
    have hturns : ∀ key value (q : Reader), Leaves Prod.snd q
        ((flowMap? fuel false q).bind fun (turns, q) => some (key :: value :: turns, q)) :=
      fun _ _ q => (flowMap?_leaves fuel false q).bind fun _ => leaves_some (Place.refl _)
    have hmarked : ∀ q : Reader, Leaves (fun read => read.2.2) q
        ((nodeUnless? fuel [.value, .comma, .closeMap] .flow q.next).map fun (key, q) =>
          (key, true, q)) :=
      fun q => ((nodeUnless?_leaves fuel _ _ _).behind q.next_behind).map fun _ => rfl
    have hbare : ∀ q : Reader, Leaves (fun read => read.2.2) q
        ((node? fuel .flow q).map fun (key, q) => (key, false, q)) :=
      fun q => (node?_leaves fuel .flow q).map fun _ => rfl
    have hvalue : ∀ key (hasValue : Bool) (q : Reader), Leaves Prod.snd q
        (if hasValue ∧ q.isAt [.value] then
          (nodeUnless? fuel [.comma, .closeMap] .flow q.next).bind fun (value, q) =>
            (flowMap? fuel false q).bind fun (turns, q) => some (key :: value :: turns, q)
        else (flowMap? fuel false q).bind fun (turns, q) => some (key :: .null :: turns, q)) := by
      intro key hasValue q
      refine .ite ?_ (hturns key .null q)
      exact ((nodeUnless?_leaves fuel _ _ _).behind q.next_behind).bind fun ⟨value, q⟩ =>
        hturns key value q
    refine .ite (leaves_some r.next_behind) (.ite leaves_none (.behind ?_ hstart))
    refine .ite (leaves_some (next_behind _)) (.ite ?_ (.ite (hvalue .null true _) ?_))
    · exact (hmarked _).bind fun ⟨key, hasValue, q⟩ => hvalue key hasValue q
    · exact (hbare _).bind fun ⟨key, hasValue, q⟩ => hvalue key hasValue q

end

/-- Reads the node of a document, and answers it with what follows. A document without a mark at its
start is not empty, one with directives has a mark. -/
def document? (r : Reader) : Option (Node × Reader) :=
  let fuel := 4 * r.tokens.length + 4
  let content : Reader := { r with tokens := r.tokens.dropWhile (· = .directive) }
  if content.isAt [.start] then
    nodeUnless? fuel [.directive, .start, .stop, .finish] .block content.next
  else if r.isAt [.directive] then none
  else node? fuel .block r

/-- A document is read from its directives on. -/
theorem document?_leaves (r : Reader) : Leaves Prod.snd r r.document? := by
  have hcontent : Place.IsBehind r { r with tokens := r.tokens.dropWhile (· = .directive) } :=
    ⟨List.dropWhile_suffix _, List.prefix_rfl⟩
  refine .ite ?_ (.ite leaves_none (node?_leaves _ .block r))
  exact (nodeUnless?_leaves _ _ _ _).behind (Place.trans hcontent (next_behind _))

end Reader

/-- The settings of a file; `none` if it is malformed. A file holds at most one document. The
settings are the entries of a mapping; a file with another node has none. -/
def settings? (text : String) : Option (List (String × Setting)) := do
  let r : Reader := { tokens := ← Token.ofText? text }
  if r.isAt [.finish] then return []
  else
    let (node, r) ← r.document?
    if r.tokens.dropWhile (· = .stop) = [.finish] then return (← node.setting?).entries else none

end Yaml
end FlashVolume
