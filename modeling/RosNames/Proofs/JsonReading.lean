import RosNames.Proofs.JsonTokens

/-!
# Reading a JSON text

Tokens are read from left to right with a stack of the arrays and objects that are still open, so
values may lie in one another to any depth. A written object is read back member by member, in the
order of writing. Reading is a function, so nothing but the same members is written as the same
text.
-/

namespace RosNames.Json

/-- What a JSON text says. The members of an object are kept in the order of the text. -/
inductive Tree
  | null
  | bool (b : Bool)
  | number (n : Decimal)
  | text (s : String)
  | array (items : List Tree)
  | object (members : List (String × Tree))

/-- An array or object that is open, with what it holds so far. In an object the value of a key is
being read. -/
inductive Frame
  | array (items : List Tree)
  | object (members : List (String × Tree)) (key : String)

/-- What may come next. An array or object that was just opened may end at once. -/
inductive Reader
  | value (stack : List Frame)
  | firstItem (stack : List Frame)
  | firstKey (stack : List Frame)
  | key (members : List (String × Tree)) (stack : List Frame)
  | colon (members : List (String × Tree)) (key : String) (stack : List Frame)
  | after (t : Tree) (stack : List Frame)

namespace Reader

def start? (stack : List Frame) : Token → Option Reader
  | .null => some (after .null stack)
  | .bool b => some (after (.bool b) stack)
  | .number n => some (after (.number n) stack)
  | .text s => some (after (.text s) stack)
  | .openArray => some (firstItem stack)
  | .openObject => some (firstKey stack)
  | _ => none

def step : Reader → Token → Option Reader
  | value stack, t => start? stack t
  | firstItem stack, .closeArray => some (after (.array []) stack)
  | firstItem stack, t => start? (.array [] :: stack) t
  | firstKey stack, .closeObject => some (after (.object []) stack)
  | firstKey stack, .text k => some (colon [] k stack)
  | key members stack, .text k => some (colon members k stack)
  | colon members k stack, .colon => some (value (.object members k :: stack))
  | after t (.array items :: stack), .comma => some (value (.array (items ++ [t]) :: stack))
  | after t (.array items :: stack), .closeArray => some (after (.array (items ++ [t])) stack)
  | after t (.object members k :: stack), .comma => some (key (members ++ [(k, t)]) stack)
  | after t (.object members k :: stack), .closeObject =>
    some (after (.object (members ++ [(k, t)])) stack)
  | _, _ => none

def close? : Reader → Option Tree
  | after t [] => some t
  | _ => none

end Reader

def decode? (text : String) : Option Tree :=
  (tokens? text.toList).bind fun tokens =>
    (tokens.foldlM Reader.step (.value [])).bind Reader.close?

def Value.tree : Value → Tree
  | null => .null
  | bool b => .bool b
  | number n => .number (.ofNat n)
  | text s => .text s

def memberTree (m : String × Value) : String × Tree := (m.1, m.2.tree)

theorem Value.tree_injective {v w : Value} (h : v.tree = w.tree) : v = w := by
  cases v <;> cases w <;> simp_all [tree, Decimal.ofNat]

theorem memberTree_injective {m n : String × Value} (h : memberTree m = memberTree n) : m = n := by
  obtain ⟨hkey, hvalue⟩ := Prod.mk.inj h
  exact Prod.ext hkey (Value.tree_injective hvalue)

namespace Reader

theorem start?_token (v : Value) (stack : List Frame) :
    start? stack v.token = some (after v.tree stack) := by
  cases v <;> rfl

theorem foldlM_step_memberTokens (done : List (String × Tree)) (stack : List Frame)
    (m : String × Value) : (memberTokens m).foldlM step (.key done stack) =
      some (.after m.2.tree (.object done m.1 :: stack)) := by
  have hvalue : step (.value (.object done m.1 :: stack)) m.2.token =
      some (.after m.2.tree (.object done m.1 :: stack)) := start?_token m.2 _
  rw [memberTokens, List.foldlM_cons]
  change List.foldlM step (.value (.object done m.1 :: stack)) [m.2.token] = _
  rw [List.foldlM_cons, hvalue]
  rfl

theorem foldlM_step_membersTokens (done : List (String × Tree)) (stack : List Frame)
    (members : List (String × Value)) (hne : members ≠ []) :
    (membersTokens members).foldlM step (.key done stack) =
      some (.after (.object (done ++ members.map memberTree)) stack) := by
  induction members using membersTokens.induct generalizing done with
  | case1 => exact absurd rfl hne
  | case2 m =>
    rw [membersTokens, List.foldlM_append, foldlM_step_memberTokens]
    rfl
  | case3 m next rest ih =>
    rw [membersTokens, List.foldlM_append, foldlM_step_memberTokens]
    have hrest := ih (done ++ [memberTree m]) (List.cons_ne_nil next rest)
    rw [List.append_assoc] at hrest
    exact hrest

theorem foldlM_step_object (members : List (String × Value)) :
    (Token.openObject :: membersTokens members).foldlM step (.value []) =
      some (.after (.object (members.map memberTree)) []) := by
  cases members with
  | nil => rfl
  | cons m rest =>
    have hfirst : (Token.openObject :: membersTokens (m :: rest)).foldlM step (.value []) =
        (membersTokens (m :: rest)).foldlM step (.key [] []) := by
      cases rest <;> rfl
    rw [hfirst, foldlM_step_membersTokens [] [] (m :: rest) (List.cons_ne_nil m rest)]
    rfl

end Reader

/-- A written object is read as its members. -/
theorem decode?_object (members : List (String × Value)) :
    decode? (object members) = some (.object (members.map memberTree)) := by
  rw [decode?, tokens?_object, Option.bind_some, Reader.foldlM_step_object]
  rfl

theorem object_injective {members others : List (String × Value)}
    (h : object members = object others) : members = others := by
  have hread : some (Tree.object (members.map memberTree)) =
      some (Tree.object (others.map memberTree)) := by
    rw [← decode?_object, ← decode?_object, h]
  have htrees : members.map memberTree = others.map memberTree :=
    Tree.object.inj (Option.some.inj hread)
  exact List.map_inj_right (fun _ _ => memberTree_injective) |>.mp htrees

/-- A text with an escape of two units, a fraction and an empty array. -/
example : decode? "\x7b \"a\" : [\"\\ud83d\\ude00\", -1.50e3, []] \x7d" = some (.object
    [("a", .array [.text "😀", .number ⟨true, 150, 1⟩, .array []])]) := by rfl

/-! ## Line breaks -/

theorem newline_notMem_escapeChar (c : Char) : '\n' ∉ escapeChar c := by
  rcases escapeChar_cases c with ⟨e, h, -, he⟩ | ⟨hcontrol, h⟩ | ⟨-, -, hprint, h⟩
  · have hne : '\n' ≠ e := by
      rintro rfl
      cases he
    simp [h, hne]
  · have hdigit {d : Nat} (hd : d < 16) : '\n' ≠ Nat.digitChar d := by
      intro heq
      have hvalue := hexDigit?_digitChar hd
      rw [← heq] at hvalue
      cases hvalue
    have hhigh := hdigit (d := c.toNat / 16) (by omega)
    have hlow := hdigit (d := c.toNat % 16) (Nat.mod_lt _ (by decide))
    simp [h, controlEscape, hhigh, hlow]
  · have hne : '\n' ≠ c := by
      rintro rfl
      exact absurd hprint (by decide)
    simp [h, hne]

theorem newline_notMem_quote (s : String) : '\n' ∉ (quote s).toList := by
  have hescaped : '\n' ∉ s.toList.flatMap escapeChar := by
    intro hmem
    obtain ⟨c, -, hc⟩ := List.mem_flatMap.mp hmem
    exact newline_notMem_escapeChar c hc
  simpa [quote] using hescaped

theorem newline_notMem_render (v : Value) : '\n' ∉ v.render.toList := by
  cases v with
  | null => decide
  | bool b => cases b <;> decide
  | number n =>
    rw [Value.render, Nat.toList_repr]
    intro hmem
    exact absurd (isDigit_of_mem_toDigits _ hmem) (by decide)
  | text s => exact newline_notMem_quote s

theorem newline_notMem_member (m : String × Value) : '\n' ∉ (member m).toList := by
  simp [member, newline_notMem_quote, newline_notMem_render]

theorem newline_notMem_object (members : List (String × Value)) :
    '\n' ∉ (object members).toList := by
  have hmembers : '\n' ∉ [','].intercalate (members.map fun m => (member m).toList) := by
    induction members using membersTokens.induct with
    | case1 => simp
    | case2 m => simpa using newline_notMem_member m
    | case3 m next rest ih =>
      simpa [List.intercalate_cons_cons, newline_notMem_member] using ih
  simpa [object, String.toList_intercalate, Function.comp_def] using hmembers

end RosNames.Json
