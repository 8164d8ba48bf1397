import RosNames.Cli.Settings
import RosNames.Proofs.ArgumentForms
import RosNames.Proofs.Utf8RoundTrip

/-!
# Settling at once

The reader judges what it has collected only when something else begins. For the outcome of a whole
command line that delay makes no difference: unless a value is awaited, the pending part can be
settled at once and the rest read from there.
-/

namespace RosNames.Cli

theorem bind_eq_ok_iff {ε α β : Type} {x : Except ε α} {f : α → Except ε β} {b : β} :
    x >>= f = .ok b ↔ ∃ a, x = .ok a ∧ f a = .ok b := by
  cases x with
  | error e => simp [bind, Except.bind]
  | ok a => simp [bind, Except.bind]

theorem ok_eq_ok_iff {ε α : Type} {a b : α} : (Except.ok a : Except ε α) = .ok b ↔ b = a := by
  rw [Except.ok.injEq, eq_comm]

theorem mapM_decode?_eq_some_iff (values : List Bytes) (texts : List String) :
    values.mapM Utf8.decode? = some texts ↔ texts.map Utf8.encode = values := by
  induction values generalizing texts with
  | nil => simp [eq_comm]
  | cons value values ih =>
    simp only [List.mapM_cons, bind, pure, Option.bind_eq_some_iff, Utf8.decode?_eq_some_iff, ih,
      Option.some.injEq, List.map_eq_cons_iff]
    constructor
    · rintro ⟨text, htext, texts, htexts, rfl⟩
      exact ⟨text, texts, rfl, htext, htexts⟩
    · rintro ⟨text, texts, rfl, htext, htexts⟩
      exact ⟨text, htext, texts, htexts, rfl⟩

theorem kindNamed?_keyword (k : Kind) : kindNamed? (Utf8.encode k.keyword) = some k := by
  cases k <;> rfl

theorem kindNamed?_eq_some_iff (value : Bytes) (k : Kind) :
    kindNamed? value = some k ↔ value = Utf8.encode k.keyword := by
  constructor
  · intro h
    have hfound := List.find?_some h
    exact (beq_iff_eq.mp hfound).symm
  · rintro rfl
    exact kindNamed?_keyword k

theorem keyword_injective {k k' : Kind} (h : k.keyword = k'.keyword) : k = k' := by
  have hkind := kindNamed?_keyword k
  rw [h, kindNamed?_keyword] at hkind
  exact (Option.some.inj hkind).symm

theorem encode_keyword_ne_nil (k : Kind) : Utf8.encode k.keyword ≠ [] := by
  cases k <;> decide

namespace Reader

def finish (r : Reader) (args : List Bytes) : Except Stop Reader := r.read args >>= settle

/-- When and to what a reader is settled. -/
def Settles (r r' : Reader) : Prop :=
  match r.pending with
  | .nothing => r' = r
  | .names values => ∃ texts, texts.map Utf8.encode = values ∧
      r' = { r with names := r.names ++ texts, pending := .nothing }
  | .kind none => False
  | .kind (some value) => r.kind = none ∧ ∃ k : Kind, value = Utf8.encode k.keyword ∧
      r' = { r with kind := some k, pending := .nothing }

/-- What becomes of a reader with nothing pending by one item. -/
def Adds (r : Reader) : Item → Reader → Prop
  | .name bytes, r' => ∃ text, Utf8.encode text = bytes ∧ r' = { r with names := r.names ++ [text] }
  | .flag f, r' => f ∉ r.flags ∧ r' = { r with flags := f :: r.flags }
  | .kind k, r' => r.kind = none ∧ r' = { r with kind := some k }

def Collects (r : Reader) : List Item → Reader → Prop
  | [], r' => r' = r
  | item :: items, r' => ∃ r₁, r.Adds item r₁ ∧ r₁.Collects items r'

variable {r r₀ r₁ r₂ r' : Reader} {args : List Bytes}

theorem settle_eq_ok_iff : r.settle = .ok r' ↔ r.Settles r' := by
  unfold settle Settles
  cases r.pending with
  | nothing => exact ok_eq_ok_iff
  | names values =>
    simp only [← mapM_decode?_eq_some_iff]
    cases values.mapM Utf8.decode? with
    | none => simp
    | some texts => simpa using eq_comm
  | kind value =>
    cases value with
    | none => simp
    | some value =>
      simp only [← kindNamed?_eq_some_iff]
      cases hkind : r.kind with
      | some k => simp
      | none =>
        cases hvalue : kindNamed? value with
        | none => by_cases hempty : value = [] <;> simp [hempty]
        | some k =>
          have hne : value ≠ [] := by
            rw [(kindNamed?_eq_some_iff value k).mp hvalue]
            exact encode_keyword_ne_nil k
          simpa [hne] using eq_comm

theorem settle_pending_kind_none (r : Reader) :
    Reader.settle { r with pending := .kind none } ≠ .ok r' := by
  rw [Ne, settle_eq_ok_iff]
  exact id

theorem settle_of_nothing (h : r.pending = .nothing) : r.settle = .ok r := by
  rw [settle_eq_ok_iff, Settles, h]

theorem pending_of_settle (h : r.settle = .ok r') : r'.pending = .nothing := by
  rw [settle_eq_ok_iff, Settles] at h
  split at h
  · next hp => rw [h, hp]
  · obtain ⟨texts, -, rfl⟩ := h
    rfl
  · exact h.elim
  · obtain ⟨-, k, -, rfl⟩ := h
    rfl

theorem settle_settle (h : r.settle = .ok r₀) : r₀.settle = .ok r₀ :=
  settle_of_nothing (pending_of_settle h)

theorem exists_settle_iff {P : Reader → Prop} : (∃ r₀, r.settle = .ok r₀ ∧ P r₀) ↔
    ∃ r₀, r.settle = .ok r₀ ∧ ∃ r₁, r₀.settle = .ok r₁ ∧ P r₁ := by
  constructor
  · rintro ⟨r₀, h₀, h⟩
    exact ⟨r₀, h₀, r₀, settle_settle h₀, h⟩
  · rintro ⟨r₀, h₀, r₁, h₁, h⟩
    obtain rfl := ok_eq_ok_iff.mp ((settle_settle h₀).symm.trans h₁)
    exact ⟨r₁, h₀, h⟩

theorem Adds.pending {item : Item} (h : r.Adds item r') : r'.pending = r.pending := by
  cases item with
  | name bytes =>
    obtain ⟨text, -, rfl⟩ := h
    rfl
  | flag f =>
    obtain ⟨-, rfl⟩ := h
    rfl
  | kind k =>
    obtain ⟨-, rfl⟩ := h
    rfl

theorem settle_names_singleton (h : r.pending = .nothing) (value : Bytes) :
    Reader.settle { r with pending := .names [value] } = .ok r' ↔ r.Adds (.name value) r' := by
  obtain ⟨kind, flags, names, pending⟩ := r
  obtain rfl : pending = .nothing := h
  rw [settle_eq_ok_iff]
  constructor
  · rintro ⟨texts, htexts, rfl⟩
    obtain ⟨text, rfl, htext⟩ := List.map_eq_singleton_iff.mp htexts
    exact ⟨text, htext, rfl⟩
  · rintro ⟨text, htext, rfl⟩
    exact ⟨[text], by rw [List.map_singleton, htext], rfl⟩

theorem addName_settle_iff (value : Bytes) :
    (∃ r₁, r.addName value = .ok r₁ ∧ r₁.settle = .ok r₂) ↔
      ∃ r₀, r.settle = .ok r₀ ∧ r₀.Adds (.name value) r₂ := by
  cases hp : r.pending with
  | names values =>
    have hadd : r.addName value = .ok { r with pending := .names (values ++ [value]) } := by
      simp only [addName, hp]
    simp only [hadd, Except.ok.injEq, exists_eq_left', settle_eq_ok_iff, Settles, hp]
    constructor
    · rintro ⟨texts, htexts, rfl⟩
      obtain ⟨front, last, rfl, hfront, hlast⟩ := List.map_eq_append_iff.mp htexts
      obtain ⟨text, rfl, htext⟩ := List.map_eq_singleton_iff.mp hlast
      exact ⟨_, ⟨front, hfront, rfl⟩, text, htext, by rw [List.append_assoc]⟩
    · rintro ⟨r₀, ⟨front, hfront, rfl⟩, text, htext, rfl⟩
      refine ⟨front ++ [text], ?_, by rw [List.append_assoc]⟩
      rw [List.map_append, hfront, List.map_singleton, htext]
  | _ =>
    have hadd : r.addName value =
        r.settle >>= fun r₀ => .ok { r₀ with pending := .names [value] } := by
      simp only [addName, hp]
      rfl
    rw [hadd]
    simp only [bind_eq_ok_iff, ok_eq_ok_iff]
    constructor
    · rintro ⟨r₁, ⟨r₀, h₀, rfl⟩, hsettle⟩
      exact ⟨r₀, h₀, (settle_names_singleton (pending_of_settle h₀) value).mp hsettle⟩
    · rintro ⟨r₀, h₀, hadds⟩
      exact ⟨_, ⟨r₀, h₀, rfl⟩, (settle_names_singleton (pending_of_settle h₀) value).mpr hadds⟩

theorem exists_addName_iff {P : Reader → Prop} (value : Bytes) :
    (∃ r₁, r.addName value = .ok r₁ ∧ ∃ r₂, r₁.settle = .ok r₂ ∧ P r₂) ↔
      ∃ r₀, r.settle = .ok r₀ ∧ ∃ r₂, r₀.Adds (.name value) r₂ ∧ P r₂ := by
  constructor
  · rintro ⟨r₁, hadd, r₂, hsettle, hP⟩
    obtain ⟨r₀, h₀, hadds⟩ := (addName_settle_iff value).mp ⟨r₁, hadd, hsettle⟩
    exact ⟨r₀, h₀, r₂, hadds, hP⟩
  · rintro ⟨r₀, h₀, r₂, hadds, hP⟩
    obtain ⟨r₁, hadd, hsettle⟩ := (addName_settle_iff value).mpr ⟨r₀, h₀, hadds⟩
    exact ⟨r₁, hadd, r₂, hsettle, hP⟩

theorem pending_of_addName {value : Bytes} (h : r.addName value = .ok r') :
    r'.pending ≠ .kind none := by
  unfold addName at h
  split at h
  · obtain rfl := ok_eq_ok_iff.mp h
    simp
  · obtain ⟨r₀, -, h⟩ := bind_eq_ok_iff.mp h
    obtain rfl := ok_eq_ok_iff.mp h
    simp

theorem finish_nil : r.finish [] = r.settle := rfl

theorem finish_endOfOptions (names : List Bytes) :
    r.finish (endOfOptions :: names) = names.foldlM addName r >>= settle := by
  rw [finish, read, if_pos rfl]

theorem finish_cons_iff {a : Bytes} (ha : a ≠ endOfOptions) :
    r.finish (a :: args) = .ok r' ↔
      ∃ r₁, r.step (Argument.ofBytes a) = .ok r₁ ∧ r₁.finish args = .ok r' := by
  simp only [finish, read, if_neg ha, bind_eq_ok_iff]
  constructor
  · rintro ⟨r₂, ⟨r₁, hstep, hread⟩, hsettle⟩
    exact ⟨r₁, hstep, r₂, hread, hsettle⟩
  · rintro ⟨r₁, hstep, r₂, hread, hsettle⟩
    exact ⟨r₂, ⟨r₁, hstep, hread⟩, hsettle⟩

theorem finish_endOfOptions_iff (names : List Bytes) :
    r.finish (endOfOptions :: names) = .ok r' ↔
      ∃ r₀, r.settle = .ok r₀ ∧ r₀.Collects (names.map .name) r' := by
  rw [finish_endOfOptions]
  induction names generalizing r with
  | nil =>
    constructor
    · intro h
      exact ⟨r', h, rfl⟩
    · rintro ⟨r₀, h, rfl⟩
      exact h
  | cons value names ih =>
    rw [List.foldlM_cons, bind_assoc, bind_eq_ok_iff]
    simp only [ih]
    exact exists_addName_iff value

/-- An argument that is no name is only read after what is pending was settled. -/
theorem step_iff_settle {arg : Argument} (harg : ∀ value, arg ≠ .plain value) :
    r.step arg = .ok r₁ ↔ ∃ r₀, r.settle = .ok r₀ ∧ r₀.step arg = .ok r₁ := by
  have hsettle {f : Reader → Except Stop Reader} :
      r.settle >>= f = .ok r₁ ↔ ∃ r₀, r.settle = .ok r₀ ∧ r₀.settle >>= f = .ok r₁ := by
    simp only [bind_eq_ok_iff]
    exact exists_settle_iff
  cases arg with
  | kind value => exact hsettle
  | flag f => exact hsettle
  | help => exact hsettle
  | version => exact hsettle
  | surplusValue option value => simp [step]
  | unexpected spelling => simp [step]
  | plain value => exact absurd rfl (harg value)

theorem step_ne_ok_of_isStop {arg : Argument} (harg : arg.IsStop) : r.step arg ≠ .ok r₁ := by
  intro h
  cases arg with
  | help =>
    obtain ⟨r₀, -, h⟩ := bind_eq_ok_iff.mp h
    cases h
  | version =>
    obtain ⟨r₀, -, h⟩ := bind_eq_ok_iff.mp h
    cases h
  | surplusValue option value => cases h
  | unexpected spelling => cases h
  | _ => exact harg

theorem step_plain (h : r.pending ≠ .kind none) (value : Bytes) :
    r.step (.plain value) = r.addName value := by
  cases hp : r.pending with
  | kind value? =>
    cases value? with
    | none => exact absurd hp h
    | some _ => simp only [step, hp]
  | _ => simp only [step, hp]

/-- Unless a value is awaited, nothing is lost by settling at once. -/
theorem finish_iff_settle (h : r.pending ≠ .kind none) :
    r.finish args = .ok r' ↔ ∃ r₀, r.settle = .ok r₀ ∧ r₀.finish args = .ok r' := by
  -- it is enough that the outcome can be told from the settled reader, whatever was pending
  have hsuffices {args : List Bytes} {P : Reader → Prop} (hP : ∀ {q : Reader},
      q.pending ≠ .kind none → (q.finish args = .ok r' ↔ ∃ r₀, q.settle = .ok r₀ ∧ P r₀))
      {q : Reader} (hq : q.pending ≠ .kind none) :
      q.finish args = .ok r' ↔ ∃ r₀, q.settle = .ok r₀ ∧ r₀.finish args = .ok r' := by
    rw [hP hq, exists_settle_iff]
    refine exists_congr fun r₀ => and_congr_right fun h₀ => (hP ?_).symm
    simp [pending_of_settle h₀]
  induction args generalizing r with
  | nil =>
    refine hsuffices (P := fun r₀ => r₀ = r') (fun {q} _ => ?_) h
    simp [finish_nil]
  | cons a args ih =>
    by_cases ha : a = endOfOptions
    · subst ha
      exact hsuffices (fun _ => finish_endOfOptions_iff args) h
    by_cases hplain : ∃ value, Argument.ofBytes a = .plain value
    · obtain ⟨value, hvalue⟩ := hplain
      refine hsuffices (P := fun r₀ => ∃ r₂, r₀.Adds (.name value) r₂ ∧ r₂.finish args = .ok r')
        (fun {q} hq => ?_) h
      rw [finish_cons_iff ha, hvalue, step_plain hq, ← exists_addName_iff]
      exact exists_congr fun r₁ => and_congr_right fun hadd => ih (pending_of_addName hadd)
    · have hplain := not_exists.mp hplain
      rw [finish_cons_iff ha]
      constructor
      · rintro ⟨r₁, hstep, hfinish⟩
        obtain ⟨r₀, h₀, hstep⟩ := (step_iff_settle hplain).mp hstep
        exact ⟨r₀, h₀, (finish_cons_iff ha).mpr ⟨r₁, hstep, hfinish⟩⟩
      · rintro ⟨r₀, h₀, hfinish⟩
        obtain ⟨r₁, hstep, hfinish⟩ := (finish_cons_iff ha).mp hfinish
        exact ⟨r₁, (step_iff_settle hplain).mpr ⟨r₀, h₀, hstep⟩, hfinish⟩

end Reader
end RosNames.Cli
