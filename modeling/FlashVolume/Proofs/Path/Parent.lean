import FlashVolume.Path.Basic
import FlashVolume.Proofs.Path.Segments
/-!
# The directory and the name of a path

`parent` and `fileName` cut a path at its last separator. A path has a separator, and then it is
`dir ++ "/" ++ name` with a name that has none, or it has no separator: its parent is the empty text
then, and its name is the path itself. The laws are stated for characters first.
-/

namespace FlashVolume
namespace Path

/-- Without a separator there is no parent. -/
theorem parentChars_of_notMem {cs : List Char} (h : '/' ∉ cs) : parentChars cs = [] := by
  have hclosed : EndsClosed [] := by simp [EndsClosed]
  have hdrop := dropWhile_segment (mt List.mem_reverse.1 h) hclosed
  rw [List.append_nil] at hdrop
  rw [parentChars, hdrop]

/-- **The parent is what stands before the last separator,** or the separator itself if nothing
does. -/
theorem parentChars_append {dir name : List Char} (h : '/' ∉ name) :
    parentChars (dir ++ '/' :: name) = if dir = [] then ['/'] else dir := by
  have hdrop : (dir ++ '/' :: name).reverse.dropWhile (· ≠ '/') = '/' :: dir.reverse := by
    rw [List.reverse_append, List.reverse_cons, List.append_assoc]
    exact dropWhile_segment (mt List.mem_reverse.1 h) (by simp [EndsClosed])
  rw [parentChars, hdrop]
  rcases List.eq_nil_or_concat dir with rfl | ⟨dir, c, rfl⟩
  · rfl
  · simp

/-- A text has no separator, or it is a directory, a separator and a name. -/
theorem notMem_or_exists_append (cs : List Char) :
    '/' ∉ cs ∨ ∃ dir name, '/' ∉ name ∧ cs = dir ++ '/' :: name := by
  induction cs with
  | nil => simp
  | cons c cs ih =>
    rcases ih with hsep | ⟨dir, name, hname, rfl⟩
    · by_cases hc : c = '/'
      · exact .inr ⟨[], cs, hsep, by simp [hc]⟩
      · exact .inl (by simp [hsep, Ne.symm hc])
    · exact .inr ⟨c :: dir, name, hname, by simp⟩

/-- The parent stands before the last separator. -/
theorem parent_of_toList {path : String} {dir name : List Char} (hname : '/' ∉ name)
    (hpath : path.toList = dir ++ '/' :: name) (hdir : dir ≠ []) :
    parent path = String.ofList dir := by
  rw [parent, hpath, parentChars_append hname, if_neg hdir]

/-- **The name is what stands behind the last separator,** or the whole path. -/
theorem fileName_append {path : String} {dir name : List Char} (hdir : EndsClosed dir.reverse)
    (hname : '/' ∉ name) (hpath : path.toList = dir ++ name) : (fileName path).toList = name := by
  rw [fileName, String.toList_ofList, fileNameChars, hpath, List.reverse_append,
    takeWhile_segment (mt List.mem_reverse.1 hname) hdir, List.reverse_reverse]

/-- The name stands behind the last separator. -/
theorem fileName_of_toList {path : String} {dir name : List Char} (hname : '/' ∉ name)
    (hpath : path.toList = dir ++ '/' :: name) : (fileName path).toList = name := by
  have hclosed : EndsClosed (dir ++ ['/']).reverse := by simp [EndsClosed]
  exact fileName_append hclosed hname (by rw [hpath, List.append_cons])

/-- A path without a separator is its own name. -/
theorem fileName_of_notMem {path : String} (h : '/' ∉ path.toList) : fileName path = path := by
  have hclosed : EndsClosed ([] : List Char).reverse := by simp [EndsClosed]
  exact String.toList_inj.1 (fileName_append hclosed h (List.nil_append _).symm)

/-- A path has a name, unless it is empty or ends in a separator. -/
theorem fileName_ne_empty {path : String} (hpath : path ≠ "")
    (hlast : path.toList.getLast? ≠ some '/') : fileName path ≠ "" := by
  rcases notMem_or_exists_append path.toList with hsep | ⟨dir, name, hname, hsplit⟩
  · rwa [fileName_of_notMem hsep]
  · rintro hempty
    have hnone : name = [] := by rw [← fileName_of_toList hname hsplit, hempty]; rfl
    rw [hsplit, hnone, List.getLast?_concat] at hlast
    exact hlast rfl

/-- A path is below its parent, unless that is the root or nothing. -/
theorem below_parent {path : String} (hempty : parent path ≠ "") (hroot : parent path ≠ "/") :
    (parent path ++ "/").toList <+: path.toList := by
  rcases notMem_or_exists_append path.toList with hsep | ⟨dir, name, hname, hpath⟩
  · refine absurd ?_ hempty
    rw [parent, parentChars_of_notMem hsep]
  · have hdir : dir ≠ [] := by
      rintro rfl
      refine hroot ?_
      rw [parent, hpath, parentChars_append hname, if_pos rfl]
    rw [parent_of_toList hname hpath hdir, hpath]
    exact ⟨name, by simp⟩

/-- What is below a directory is in it, or its parent is below the directory as well. -/
theorem parent_of_below {dir path : String} (hdir : dir ≠ "")
    (h : (dir ++ "/").toList <+: path.toList) :
    parent path = dir ∨
      (dir ++ "/").toList <+: (parent path).toList ∧
        (parent path).toList.length < path.toList.length := by
  obtain ⟨rest, hrest⟩ := h
  have hpath : path.toList = dir.toList ++ '/' :: rest := by simpa using hrest.symm
  have hdir : dir.toList ≠ [] := by simpa using hdir
  rcases notMem_or_exists_append rest with hsep | ⟨above, name, hname, rfl⟩
  · left
    rw [parent_of_toList hsep hpath hdir, String.ofList_toList]
  · right
    have hsplit : path.toList = (dir.toList ++ '/' :: above) ++ '/' :: name := by simpa using hpath
    rw [parent_of_toList hname hsplit (by simp), hsplit, String.toList_ofList]
    refine ⟨⟨above, by simp⟩, ?_⟩
    simp

end Path
end FlashVolume
