/-!
# Texts cut at a character

A text that is cut at the first place of a character, or at the last, is cut in one way only. So the
first line break tells where the first line ends, and in a line that was written behind a name and a
colon, the last colon tells where the name ends.
-/

namespace RosNames

variable {c : Char} {front front' rest rest' : List Char}

theorem append_cons_inj_of_notMem_front (h : c ∉ front) (h' : c ∉ front')
    (heq : front ++ c :: rest = front' ++ c :: rest') : front = front' ∧ rest = rest' := by
  have hsplit := congrArg (List.splitOn c) heq
  rw [List.splitOn_append_cons_self_of_not_mem h, List.splitOn_append_cons_self_of_not_mem h']
    at hsplit
  obtain rfl : front = front' := (List.cons.inj hsplit).1
  exact ⟨rfl, (List.cons.inj (List.append_cancel_left heq)).2⟩

theorem append_cons_inj_of_notMem_rest (h : c ∉ rest) (h' : c ∉ rest')
    (heq : front ++ c :: rest = front' ++ c :: rest') : front = front' ∧ rest = rest' := by
  have hreverse : rest.reverse ++ c :: front.reverse = rest'.reverse ++ c :: front'.reverse := by
    simpa using congrArg List.reverse heq
  obtain ⟨hrest, hfront⟩ :=
    append_cons_inj_of_notMem_front (by simpa using h) (by simpa using h') hreverse
  exact ⟨List.reverse_inj.mp hfront, List.reverse_inj.mp hrest⟩

theorem append_newline_inj {line line' rest rest' : String} (h : '\n' ∉ line.toList)
    (h' : '\n' ∉ line'.toList) (heq : line ++ "\n" ++ rest = line' ++ "\n" ++ rest') :
    line = line' ∧ rest = rest' := by
  have hchars : line.toList ++ '\n' :: rest.toList = line'.toList ++ '\n' :: rest'.toList := by
    simpa using congrArg String.toList heq
  obtain ⟨hline, hrest⟩ := append_cons_inj_of_notMem_front h h' hchars
  exact ⟨String.toList_inj.mp hline, String.toList_inj.mp hrest⟩

/-- A name is told from what is said of it by the last colon. -/
theorem append_colon_inj {name name' said said' : String} (h : ':' ∉ said.toList)
    (h' : ':' ∉ said'.toList) (heq : name ++ ":" ++ said = name' ++ ":" ++ said') :
    name = name' ∧ said = said' := by
  have hchars : name.toList ++ ':' :: said.toList = name'.toList ++ ':' :: said'.toList := by
    simpa using congrArg String.toList heq
  obtain ⟨hname, hsaid⟩ := append_cons_inj_of_notMem_rest h h' hchars
  exact ⟨String.toList_inj.mp hname, String.toList_inj.mp hsaid⟩

end RosNames
