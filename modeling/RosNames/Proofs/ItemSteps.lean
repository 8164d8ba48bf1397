import RosNames.Proofs.Settling

/-!
# Reading item by item

With nothing pending, a reader takes the spelling of an item as a whole and settles it before it
reads on: the item adds its part, or the reading comes to nothing. An option for the kind without a
value waits for a name, and any other argument, the end of the options included, stops it.
-/

namespace RosNames.Cli

theorem exists_keyword_iff (k : Kind) {P : Kind → Prop} :
    (∃ k' : Kind, Utf8.encode k.keyword = Utf8.encode k'.keyword ∧ P k') ↔ P k := by
  constructor
  · rintro ⟨k', hk, h⟩
    have hsome : some k' = some k := by rw [← kindNamed?_keyword k, hk, kindNamed?_keyword]
    rwa [← Option.some.inj hsome]
  · intro h
    exact ⟨k, rfl, h⟩

theorem isName_keyword (k : Kind) : IsName (Utf8.encode k.keyword) := by
  refine Or.inr (Or.inr ?_)
  cases k <;> decide

theorem spellsKind_none_of_mem {option : String} (h : option ∈ ["--kind", "-k"]) :
    SpellsKind (Utf8.encode option) none := by
  simp only [List.mem_cons, List.not_mem_nil, or_false] at h
  rcases h with rfl | rfl
  · exact Or.inl rfl
  · exact Or.inr rfl

theorem spellsKind_some_of_mem {option : String} (h : option ∈ ["--kind=", "-k", "-k="])
    (k : Kind) : SpellsKind (Utf8.encode option ++ Utf8.encode k.keyword)
      (some (Utf8.encode k.keyword)) := by
  simp only [List.mem_cons, List.not_mem_nil, or_false] at h
  rcases h with rfl | rfl | rfl
  · exact Or.inl rfl
  · exact Or.inr (Or.inr ⟨rfl, by cases k <;> decide, by cases k <;> decide⟩)
  · exact Or.inr (Or.inl rfl)

namespace Reader

variable {r r₁ r' : Reader} {args : List Bytes}

theorem finish_ne_ok_of_isStop {a : Bytes} (ha : a ≠ endOfOptions)
    (h : (Argument.ofBytes a).IsStop) : r.finish (a :: args) ≠ .ok r' := by
  intro hfinish
  obtain ⟨r₁, hstep, -⟩ := (finish_cons_iff ha).mp hfinish
  exact step_ne_ok_of_isStop h hstep

section Settled

variable (h : r.pending = .nothing)
include h

theorem finish_name_iff {a : Bytes} (ha : IsName a) : r.finish (a :: args) = .ok r' ↔
    ∃ r₁, r.Adds (.name a) r₁ ∧ r₁.finish args = .ok r' := by
  have hne : a ≠ endOfOptions := by
    rintro rfl
    exact not_isName_endOfOptions ha
  have hwaits : r.pending ≠ .kind none := by simp [h]
  rw [finish_cons_iff hne, Argument.ofBytes_of_isName ha, step_plain hwaits]
  calc (∃ r₁, r.addName a = .ok r₁ ∧ r₁.finish args = .ok r')
      ↔ ∃ r₁, r.addName a = .ok r₁ ∧ ∃ r₂, r₁.settle = .ok r₂ ∧ r₂.finish args = .ok r' :=
        exists_congr fun r₁ => and_congr_right fun hadd =>
          finish_iff_settle (pending_of_addName hadd)
    _ ↔ ∃ r₀, r.settle = .ok r₀ ∧ ∃ r₂, r₀.Adds (.name a) r₂ ∧ r₂.finish args = .ok r' :=
        exists_addName_iff a
    _ ↔ ∃ r₂, r.Adds (.name a) r₂ ∧ r₂.finish args = .ok r' := by
        simp only [settle_of_nothing h, Except.ok.injEq, exists_eq_left']

theorem finish_flag_iff (f : Flag) :
    r.finish (Utf8.encode ("--" ++ f.spelling) :: args) = .ok r' ↔
      ∃ r₁, r.Adds (.flag f) r₁ ∧ r₁.finish args = .ok r' := by
  have hne : Utf8.encode ("--" ++ f.spelling) ≠ endOfOptions := by cases f <;> decide
  have hstep (r₁ : Reader) : r.step (.flag f) = .ok r₁ ↔ r.Adds (.flag f) r₁ := by
    simp only [step, settle_of_nothing h, bind, Except.bind, Adds]
    by_cases hf : f ∈ r.flags
    · simp [hf]
    · rw [if_neg hf, and_iff_right hf]
      exact ok_eq_ok_iff
  simp only [finish_cons_iff hne, Argument.ofBytes_flag, hstep]

theorem finish_pending_kind_iff (value : Bytes) :
    Reader.finish { r with pending := .kind (some value) } args = .ok r' ↔
      ∃ k : Kind, value = Utf8.encode k.keyword ∧
        ∃ r₁, r.Adds (.kind k) r₁ ∧ r₁.finish args = .ok r' := by
  obtain ⟨kind, flags, names, pending⟩ := r
  obtain rfl : pending = .nothing := h
  rw [finish_iff_settle (by simp)]
  simp only [settle_eq_ok_iff, Settles]
  constructor
  · rintro ⟨r₁, ⟨hkind, k, hvalue, rfl⟩, hfinish⟩
    exact ⟨k, hvalue, _, ⟨hkind, rfl⟩, hfinish⟩
  · rintro ⟨k, hvalue, r₁, ⟨hkind, rfl⟩, hfinish⟩
    exact ⟨_, ⟨hkind, k, hvalue, rfl⟩, hfinish⟩

theorem finish_attachedKind_iff {a value : Bytes} (ha : SpellsKind a (some value)) :
    r.finish (a :: args) = .ok r' ↔ ∃ k : Kind, value = Utf8.encode k.keyword ∧
      ∃ r₁, r.Adds (.kind k) r₁ ∧ r₁.finish args = .ok r' := by
  have hstep : r.step (.kind (some value)) =
      Reader.settle { r with pending := .kind (some value) } := by
    simp only [step, settle_of_nothing h]
    rfl
  rw [finish_cons_iff (SpellsKind.ne_endOfOptions ha), Argument.ofBytes_of_spellsKind ha, hstep,
    ← finish_iff_settle (by simp), finish_pending_kind_iff h]

theorem step_kind_none : r.step (.kind none) = .ok { r with pending := .kind none } := by
  simp only [step, settle_of_nothing h]
  rfl

theorem finish_kind_nil {a : Bytes} (ha : SpellsKind a none) : r.finish [a] ≠ .ok r' := by
  intro hfinish
  obtain ⟨r₁, hstep, hsettle⟩ := (finish_cons_iff (SpellsKind.ne_endOfOptions ha)).mp hfinish
  rw [Argument.ofBytes_of_spellsKind ha, step_kind_none h, ok_eq_ok_iff] at hstep
  subst hstep
  exact settle_pending_kind_none r hsettle

/-- The option for the kind alone takes the next argument for its value, and nothing but a name. -/
theorem finish_kind_iff {a : Bytes} (ha : SpellsKind a none) (b : Bytes) :
    r.finish (a :: b :: args) = .ok r' ↔ ∃ k : Kind, b = Utf8.encode k.keyword ∧
      ∃ r₁, r.Adds (.kind k) r₁ ∧ r₁.finish args = .ok r' := by
  rw [finish_cons_iff (SpellsKind.ne_endOfOptions ha), Argument.ofBytes_of_spellsKind ha,
    step_kind_none h]
  simp only [Except.ok.injEq, exists_eq_left']
  by_cases hb : IsName b
  · have hne : b ≠ endOfOptions := by
      rintro rfl
      exact not_isName_endOfOptions hb
    have htake : Reader.step { r with pending := .kind none } (.plain b) =
        .ok { r with pending := .kind (some b) } := rfl
    rw [finish_cons_iff hne, Argument.ofBytes_of_isName hb, htake]
    simp only [Except.ok.injEq, exists_eq_left']
    exact finish_pending_kind_iff h b
  · -- whatever else comes next settles the option without a value
    refine iff_of_false (fun hfinish => ?_) ?_
    · by_cases hend : b = endOfOptions
      · subst hend
        obtain ⟨r₀, h₀, -⟩ := (finish_endOfOptions_iff args).mp hfinish
        exact settle_pending_kind_none r h₀
      · obtain ⟨r₁, hstep, -⟩ := (finish_cons_iff hend).mp hfinish
        obtain ⟨r₀, h₀, -⟩ := (step_iff_settle (Argument.ofBytes_ne_plain hb)).mp hstep
        exact settle_pending_kind_none r h₀
    · rintro ⟨k, rfl, -⟩
      exact hb (isName_keyword k)

/-- An item is settled before the rest is read. -/
theorem finish_spelling_iff {item : Item} {spelled : List Bytes} (hs : Spelling item spelled) :
    r.finish (spelled ++ args) = .ok r' ↔ ∃ r₁, r.Adds item r₁ ∧ r₁.finish args = .ok r' := by
  cases hs with
  | name ha => exact finish_name_iff h ha
  | flag f => exact finish_flag_iff h f
  | kind k hoption =>
    rw [List.cons_append, List.cons_append, finish_kind_iff h (spellsKind_none_of_mem hoption)]
    exact exists_keyword_iff k
  | attachedKind k hoption =>
    rw [List.cons_append, finish_attachedKind_iff h (spellsKind_some_of_mem hoption k)]
    exact exists_keyword_iff k

/-- What is read to the end begins with the spelling of an item. -/
theorem exists_spelling_of_finish {a : Bytes} (ha : a ≠ endOfOptions)
    (hfinish : r.finish (a :: args) = .ok r') :
    ∃ item spelled rest, a :: args = spelled ++ rest ∧ Spelling item spelled := by
  rcases Argument.ofBytes_cases a with hname | ⟨f, rfl⟩ | ⟨value, hkind⟩ | hstop
  · exact ⟨.name a, [a], args, rfl, .name hname⟩
  · exact ⟨.flag f, _, args, rfl, .flag f⟩
  · cases value with
    | none =>
      cases args with
      | nil => exact absurd hfinish (finish_kind_nil h hkind)
      | cons b rest =>
        obtain ⟨k, rfl, -⟩ := (finish_kind_iff h hkind b).mp hfinish
        rcases hkind with rfl | rfl
        · exact ⟨.kind k, _, rest, rfl, .kind k (by simp)⟩
        · exact ⟨.kind k, _, rest, rfl, .kind k (by simp)⟩
    | some value =>
      obtain ⟨k, rfl, -⟩ := (finish_attachedKind_iff h hkind).mp hfinish
      rcases hkind with rfl | rfl | ⟨rfl, -⟩
      · exact ⟨.kind k, _, args, rfl, .attachedKind k (by simp)⟩
      · exact ⟨.kind k, _, args, rfl, .attachedKind k (by simp)⟩
      · exact ⟨.kind k, _, args, rfl, .attachedKind k (by simp)⟩
  · exact absurd hfinish (finish_ne_ok_of_isStop ha hstop)

end Settled

end Reader
end RosNames.Cli
