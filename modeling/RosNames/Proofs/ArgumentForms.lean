import RosNames.Cli.Argument
import RosNames.Kind

/-!
# How arguments are spelled

Reading an argument takes it apart; here it is put together again. Three things can be part of an
accepted command line in front of the end of the options, a name, a flag and a choice of the kind,
and for each of these items the spellings are listed. Every other argument means that reading stops.
-/

namespace RosNames.Cli

/-- Empty, the dash alone, or anything that does not begin with a dash. -/
def IsName (a : Bytes) : Prop := a = [] ∨ a = [dash] ∨ a.head? ≠ some dash

inductive Item
  | name (bytes : Bytes)
  | flag (f : Flag)
  | kind (k : Kind)
  deriving DecidableEq, Repr

/-- The arguments that are an item: one, or two where the kind stands apart from its option. -/
inductive Spelling : Item → List Bytes → Prop
  | name {a : Bytes} : IsName a → Spelling (.name a) [a]
  | flag (f : Flag) : Spelling (.flag f) [Utf8.encode ("--" ++ f.spelling)]
  | kind {option : String} (k : Kind) : option ∈ ["--kind", "-k"] →
      Spelling (.kind k) [Utf8.encode option, Utf8.encode k.keyword]
  | attachedKind {option : String} (k : Kind) : option ∈ ["--kind=", "-k", "-k="] →
      Spelling (.kind k) [Utf8.encode option ++ Utf8.encode k.keyword]

theorem Spelling.ne_nil {item : Item} {spelled : List Bytes} (h : Spelling item spelled) :
    spelled ≠ [] := by
  cases h <;> exact List.cons_ne_nil _ _

/-- The option for the kind, with the value that is attached to it or with none. -/
def SpellsKind (a : Bytes) : Option Bytes → Prop
  | none => a = Utf8.encode "--kind" ∨ a = Utf8.encode "-k"
  | some value => a = Utf8.encode "--kind=" ++ value ∨ a = Utf8.encode "-k=" ++ value ∨
      a = Utf8.encode "-k" ++ value ∧ value ≠ [] ∧ value.head? ≠ some equals

namespace Argument

def IsStop : Argument → Prop
  | kind _ | flag _ | plain _ => False
  | help | version | surplusValue .. | unexpected _ => True

def attached : Option Bytes → Bytes
  | none => []
  | some value => equals :: value

theorem eq_takeWhile_append_attached (body : Bytes) : body =
    body.takeWhile (· != equals) ++ attached (body.dropWhile (· != equals)).tail? := by
  have hsplit := List.takeWhile_append_dropWhile (p := (· != equals)) (l := body)
  cases h : body.dropWhile (· != equals) with
  | nil => simpa [h, attached] using hsplit.symm
  | cons b value =>
    have hb : b = equals := by
      have hhead := List.head?_dropWhile_not (· != equals) body
      simpa [h] using hhead
    rw [h, hb] at hsplit
    exact hsplit.symm

theorem ofLong_kind (value : Option Bytes) :
    ofLong (Utf8.encode "kind" ++ attached value) = kind value := by
  have hkind : Utf8.encode "kind" = [0x6b, 0x69, 0x6e, 0x64] := rfl
  have hword : ∀ b ∈ Utf8.encode "kind", (b != equals) = true := by simp [hkind, equals]
  unfold ofLong
  rw [List.takeWhile_append_of_pos hword, List.dropWhile_append_of_pos hword]
  cases value <;> simp [attached]

theorem mem_bare {o : String × Argument} (h : o ∈ bare) :
    (∃ f : Flag, o = (f.spelling, flag f)) ∨ o.2.IsStop := by
  rcases List.mem_append.mp h with h | h
  · obtain ⟨f, -, rfl⟩ := List.mem_map.mp h
    exact Or.inl ⟨f, rfl⟩
  · simp only [List.mem_cons, List.not_mem_nil, or_false] at h
    rcases h with rfl | rfl
    · exact Or.inr trivial
    · exact Or.inr trivial

theorem ofLong_cases (body : Bytes) :
    (∃ value, body = Utf8.encode "kind" ++ attached value) ∨
    (∃ f : Flag, body = Utf8.encode f.spelling) ∨ (ofLong body).IsStop := by
  have hbody := eq_takeWhile_append_attached body
  unfold ofLong
  generalize body.takeWhile (· != equals) = word at hbody ⊢
  generalize (body.dropWhile (· != equals)).tail? = value at hbody ⊢
  by_cases hkind : word = Utf8.encode "kind"
  · exact Or.inl ⟨value, by rw [hbody, hkind]⟩
  · right
    simp only [if_neg hkind]
    cases hfind : bare.find? (fun o => word == Utf8.encode o.1) with
    | none => exact Or.inr trivial
    | some o =>
      have hword : word = Utf8.encode o.1 := by simpa using List.find?_some hfind
      cases value with
      | none =>
        rcases mem_bare (List.mem_of_find?_eq_some hfind) with ⟨f, rfl⟩ | hstop
        · exact Or.inl ⟨f, by rw [hbody, hword, attached, List.append_nil]⟩
        · exact Or.inr hstop
      | some v => exact Or.inr trivial

theorem ofBytes_of_isName {a : Bytes} (h : IsName a) : ofBytes a = plain a := by
  match a with
  | [] => rfl
  | [b] => rfl
  | b :: letter :: rest =>
    have hb : b ≠ dash := by simpa [IsName] using h
    simp [ofBytes, hb]

theorem ofBytes_flag (f : Flag) : ofBytes (Utf8.encode ("--" ++ f.spelling)) = flag f := by
  cases f <;> rfl

theorem ofBytes_of_spellsKind {a : Bytes} {value : Option Bytes} (h : SpellsKind a value) :
    ofBytes a = kind value := by
  cases value with
  | none =>
    rcases h with rfl | rfl
    · exact ofLong_kind none
    · rfl
  | some v =>
    rcases h with rfl | rfl | ⟨rfl, hne, hhead⟩
    · exact ofLong_kind (some v)
    · rfl
    · cases v with
      | nil => exact absurd rfl hne
      | cons b rest =>
        have hb : b ≠ equals := by simpa using hhead
        have hshort : ofBytes (Utf8.encode "-k" ++ b :: rest) = ofShort 0x6b (b :: rest) := rfl
        simp [hshort, ofShort, hb]

theorem ofShort_cases {letter : UInt8} (h : letter ≠ dash) (rest : Bytes) :
    (∃ value, SpellsKind (dash :: letter :: rest) value) ∨ (ofShort letter rest).IsStop := by
  by_cases hk : letter = 0x6b
  · subst hk
    left
    cases rest with
    | nil => exact ⟨none, Or.inr rfl⟩
    | cons b value =>
      by_cases hb : b = equals
      · subst hb
        exact ⟨some value, Or.inr (Or.inl rfl)⟩
      · exact ⟨some (b :: value), Or.inr (Or.inr ⟨rfl, by simp, by simpa using hb⟩)⟩
  · right
    unfold ofShort
    rw [if_neg hk]
    -- the letters for help and version, and what is not understood
    split
    · trivial
    · split
      · trivial
      · split <;> trivial

/-- An argument is a name, a flag or the option for the kind, or it stops the reading. -/
theorem ofBytes_cases (a : Bytes) : IsName a ∨
    (∃ f : Flag, a = Utf8.encode ("--" ++ f.spelling)) ∨
    (∃ value, SpellsKind a value) ∨ (ofBytes a).IsStop := by
  match a with
  | [] => exact Or.inl (Or.inl rfl)
  | [b] =>
    by_cases hb : b = dash
    · exact Or.inl (Or.inr (Or.inl (by rw [hb])))
    · exact Or.inl (Or.inr (Or.inr (by simpa using hb)))
  | b :: letter :: rest =>
    by_cases hb : b = dash
    · subst hb
      by_cases hl : letter = dash
      · subst hl
        rcases ofLong_cases rest with ⟨value, rfl⟩ | ⟨f, rfl⟩ | hstop
        · refine Or.inr (Or.inr (Or.inl ⟨value, ?_⟩))
          cases value
          · exact Or.inl rfl
          · exact Or.inl rfl
        · exact Or.inr (Or.inl ⟨f, by cases f <;> rfl⟩)
        · exact Or.inr (Or.inr (Or.inr hstop))
      · rcases ofShort_cases hl rest with hkind | hstop
        · exact Or.inr (Or.inr (Or.inl hkind))
        · have hshort : ofBytes (dash :: letter :: rest) = ofShort letter rest := by
            simp [ofBytes, hl]
          exact Or.inr (Or.inr (Or.inr (hshort ▸ hstop)))
    · exact Or.inl (Or.inr (Or.inr (by simpa using hb)))

theorem ofBytes_ne_plain {a : Bytes} (h : ¬ IsName a) (value : Bytes) :
    ofBytes a ≠ plain value := by
  intro hplain
  rcases ofBytes_cases a with hname | ⟨f, rfl⟩ | ⟨value, hkind⟩ | hstop
  · exact h hname
  · rw [ofBytes_flag] at hplain
    cases hplain
  · rw [ofBytes_of_spellsKind hkind] at hplain
    cases hplain
  · rw [hplain] at hstop
    exact hstop

end Argument

theorem not_isName_endOfOptions : ¬ IsName endOfOptions := by
  simp [IsName, endOfOptions]

theorem SpellsKind.ne_endOfOptions {a : Bytes} {value : Option Bytes} (h : SpellsKind a value) :
    a ≠ endOfOptions := by
  rintro rfl
  have hkind := Argument.ofBytes_of_spellsKind h
  cases hkind

theorem Spelling.endOfOptions_notMem {item : Item} {spelled : List Bytes}
    (h : Spelling item spelled) : endOfOptions ∉ spelled := by
  cases h with
  | name ha =>
    intro hmem
    obtain rfl := List.mem_singleton.mp hmem
    exact not_isName_endOfOptions ha
  | flag f => cases f <;> decide
  | kind k hoption =>
    simp only [List.mem_cons, List.not_mem_nil, or_false] at hoption
    rcases hoption with rfl | rfl
    · cases k <;> decide
    · cases k <;> decide
  | attachedKind k hoption =>
    simp only [List.mem_cons, List.not_mem_nil, or_false] at hoption
    rcases hoption with rfl | rfl | rfl
    · cases k <;> decide
    · cases k <;> decide
    · cases k <;> decide

end RosNames.Cli
