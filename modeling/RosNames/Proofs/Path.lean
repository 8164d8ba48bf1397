import RosNames.Proofs.Verdict

/-!
# Paths and their tokens

A path is a list of tokens, each after a slash. The rules for paths never see a token: they look at
the first byte, the last one, single bytes and neighbouring pairs. The bytes up to the next slash
are a token nevertheless, and the rest is again a name that keeps the rules, so by induction the
names that keep the rules are the paths.
-/

namespace RosNames

/-- A letter or an underscore, then letters, digits and underscores. -/
def IsToken (token : Bytes) : Prop :=
  ∃ b rest, token = b :: rest ∧ Byte.OpensToken b ∧
    ∀ c ∈ rest, Byte.OpensToken c ∨ Byte.IsDigit c

def joinTokens (tokens : List Bytes) : Bytes := tokens.flatMap (Byte.separator :: ·)

/-- One or more tokens, each after a slash. -/
def IsPath (name : Bytes) : Prop :=
  ∃ tokens, tokens ≠ [] ∧ (∀ t ∈ tokens, IsToken t) ∧ name = joinTokens tokens

theorem joinTokens_cons (token : Bytes) (tokens : List Bytes) :
    joinTokens (token :: tokens) = Byte.separator :: (token ++ joinTokens tokens) := rfl

namespace IsToken

variable {token : Bytes}

theorem isTokenByte (h : IsToken token) : ∀ b ∈ token, Byte.isTokenByte b := by
  obtain ⟨b, rest, rfl, hb, hrest⟩ := h
  intro c hc
  rcases List.mem_cons.mp hc with rfl | hc
  · exact Byte.isTokenByte_of_opensToken hb
  · exact (Byte.isTokenByte_iff c).mpr (hrest c hc)

theorem ne_separator (h : IsToken token) : ∀ b ∈ token, b ≠ Byte.separator :=
  fun b hb => Byte.ne_separator_of_isTokenByte (h.isTokenByte b hb)

theorem ne_nil (h : IsToken token) : token ≠ [] := by
  obtain ⟨b, rest, rfl, -, -⟩ := h
  exact List.cons_ne_nil b rest

end IsToken

/-- All that the rules for paths ask of a name, its length apart. -/
structure IsWellFormed (name : Bytes) : Prop where
  head : name.head? = some Byte.separator
  last : name.getLast? ≠ some Byte.separator
  allowed : ∀ b ∈ name, Byte.isTokenByte b ∨ b = Byte.separator
  starts : ∀ i, faultAfter? name i = none

theorem Grammar.keeps_flawRules_iff_isWellFormed (g : Grammar) (hs : g.shape = .path)
    (ha : g.allowsSeparator) (name : Bytes) :
    (∀ r ∈ g.shape.flawRules, g.Keeps name r) ↔ IsWellFormed name := by
  have hallows (b : UInt8) : g.allows b ↔ Byte.isTokenByte b ∨ b = Byte.separator := by
    simp [Grammar.allows, ha]
  simp only [hs, Shape.flawRules, List.forall_mem_cons, Grammar.Keeps, hallows]
  constructor
  · rintro ⟨-, hhead, hlast, hallowed, hstarts, -⟩
    exact ⟨hhead, hlast, hallowed, hstarts⟩
  · intro h
    refine ⟨?_, h.head, h.last, h.allowed, h.starts, by simp⟩
    rintro rfl
    simpa using h.head

theorem isTokenByte_or_separator_of_mem_joinTokens {tokens : List Bytes}
    (h : ∀ t ∈ tokens, IsToken t) :
    ∀ b ∈ joinTokens tokens, Byte.isTokenByte b ∨ b = Byte.separator := by
  intro b hb
  obtain ⟨t, ht, hbt⟩ := List.mem_flatMap.mp hb
  rcases List.mem_cons.mp hbt with rfl | hbt
  · exact Or.inr rfl
  · exact Or.inl ((h t ht).isTokenByte b hbt)

theorem getLast?_joinTokens_ne_separator {tokens : List Bytes} (h : ∀ t ∈ tokens, IsToken t) :
    (joinTokens tokens).getLast? ≠ some Byte.separator := by
  induction tokens with
  | nil => simp [joinTokens]
  | cons t tokens ih =>
    obtain ⟨ht, htokens⟩ := List.forall_mem_cons.mp h
    obtain ⟨b, hb⟩ : ∃ b, t.getLast? = some b := ⟨_, List.getLast?_eq_some_getLast ht.ne_nil⟩
    have hbne : b ≠ Byte.separator := ht.ne_separator b (List.mem_of_getLast? hb)
    rw [joinTokens_cons, ← List.cons_append, List.getLast?_append]
    cases hlast : (joinTokens tokens).getLast? with
    | none => simpa [List.getLast?_cons, hb] using hbne
    | some c => simpa [hlast] using ih htokens

theorem tokenStartFinding?_joinTokens {tokens : List Bytes} (h : ∀ t ∈ tokens, IsToken t)
    (k : Nat) : tokenStartFinding? k (joinTokens tokens) = none := by
  induction tokens generalizing k with
  | nil => rfl
  | cons t tokens ih =>
    obtain ⟨ht, htokens⟩ := List.forall_mem_cons.mp h
    have hscan := tokenStartFinding?_append (k + 1) t (joinTokens tokens) ht.ne_separator
    obtain ⟨b, rest, rfl, hb, -⟩ := ht
    have hpair : pairFault? Byte.separator b = none := by
      have hne := Byte.ne_separator_of_isTokenByte (Byte.isTokenByte_of_opensToken hb)
      simp [pairFault?, hne, Byte.not_isDigit_of_opensToken hb]
    rw [joinTokens_cons, List.cons_append, tokenStartFinding?_cons_cons, hpair, Option.map_none,
      Option.none_or, ← List.cons_append, hscan]
    exact ih htokens _

theorem IsPath.isWellFormed {name : Bytes} (h : IsPath name) : IsWellFormed name := by
  obtain ⟨tokens, hne, htokens, rfl⟩ := h
  refine ⟨?_, getLast?_joinTokens_ne_separator htokens,
    isTokenByte_or_separator_of_mem_joinTokens htokens,
    (tokenStartFinding?_eq_none_iff 0 _).mp (tokenStartFinding?_joinTokens htokens 0)⟩
  cases tokens with
  | nil => exact absurd rfl hne
  | cons t tokens => rfl

theorem exists_eq_append_slash (name : Bytes) :
    ∃ front tail, name = front ++ tail ∧ (∀ b ∈ front, b ≠ Byte.separator) ∧
      (tail = [] ∨ ∃ rest, tail = Byte.separator :: rest) := by
  induction name with
  | nil => exact ⟨[], [], rfl, by simp, Or.inl rfl⟩
  | cons b name ih =>
    by_cases hb : b = Byte.separator
    · exact ⟨[], b :: name, rfl, by simp, Or.inr ⟨name, by rw [hb]⟩⟩
    · obtain ⟨front, tail, rfl, hfront, htail⟩ := ih
      exact ⟨b :: front, tail, rfl, List.forall_mem_cons.mpr ⟨hb, hfront⟩, htail⟩

namespace IsWellFormed

theorem isToken {b : UInt8} {front tail : Bytes}
    (h : IsWellFormed (Byte.separator :: b :: (front ++ tail)))
    (hfront : ∀ c ∈ front, c ≠ Byte.separator) : IsToken (b :: front) := by
  have hpair : pairFault? Byte.separator b = none := h.starts 0
  have hb : b ≠ Byte.separator := by
    rintro rfl
    simp [pairFault?] at hpair
  have hdigit : ¬ Byte.IsDigit b := by
    simpa [pairFault?, hb] using hpair
  have htoken : Byte.isTokenByte b := (h.allowed b (by simp)).resolve_right hb
  refine ⟨b, front, rfl, Byte.opensToken_of_isTokenByte htoken hdigit, fun c hc => ?_⟩
  exact (Byte.isTokenByte_iff c).mp ((h.allowed c (by simp [hc])).resolve_right (hfront c hc))

theorem drop (front : Bytes) {rest : Bytes} (h : IsWellFormed (front ++ Byte.separator :: rest)) :
    IsWellFormed (Byte.separator :: rest) where
  head := rfl
  last := by simpa [List.getLast?_append] using h.last
  allowed b hb := h.allowed b (List.mem_append_right front hb)
  starts i := by rw [← faultAfter?_append_right front, h.starts]

theorem isPath {name : Bytes} (h : IsWellFormed name) : IsPath name := by
  -- the length falls by at least the first token and its slash
  induction hn : name.length using Nat.strongRecOn generalizing name with
  | _ n ih =>
    obtain ⟨rest, rfl⟩ := List.head?_eq_some_iff.mp h.head
    cases rest with
    | nil => exact absurd rfl h.last
    | cons b rest =>
      obtain ⟨front, tail, rfl, hfront, htail⟩ := exists_eq_append_slash rest
      have htoken : IsToken (b :: front) := h.isToken hfront
      rcases htail with rfl | ⟨rest, rfl⟩
      · exact ⟨[b :: front], by simp, by simpa using htoken, by simp [joinTokens]⟩
      · have hlt : (Byte.separator :: rest).length < n := by
          rw [← hn]
          simp only [List.length_cons, List.length_append]
          omega
        have hdrop : IsWellFormed (Byte.separator :: rest) := h.drop (Byte.separator :: b :: front)
        obtain ⟨tokens, -, htokens, hjoin⟩ := ih _ hlt hdrop rfl
        refine ⟨(b :: front) :: tokens, by simp, List.forall_mem_cons.mpr ⟨htoken, htokens⟩, ?_⟩
        rw [joinTokens_cons, ← hjoin, List.cons_append]

end IsWellFormed

theorem isWellFormed_iff_isPath (name : Bytes) : IsWellFormed name ↔ IsPath name :=
  ⟨IsWellFormed.isPath, IsPath.isWellFormed⟩

theorem Grammar.flaw?_eq_none_iff_isPath (g : Grammar) (hs : g.shape = .path)
    (ha : g.allowsSeparator) (name : Bytes) :
    g.flaw? name = none ↔ g.IsRoot name ∨ IsPath name := by
  rw [g.flaw?_eq_none_iff, g.keeps_flawRules_iff_isWellFormed hs ha, isWellFormed_iff_isPath]

theorem topicGrammar_flaw?_eq_none_iff (name : Bytes) :
    topicGrammar.flaw? name = none ↔ IsPath name := by
  rw [topicGrammar.flaw?_eq_none_iff_isPath rfl rfl]
  simp [Grammar.IsRoot, topicGrammar]

theorem namespaceGrammar_flaw?_eq_none_iff (name : Bytes) :
    namespaceGrammar.flaw? name = none ↔ name = [Byte.separator] ∨ IsPath name := by
  rw [namespaceGrammar.flaw?_eq_none_iff_isPath rfl rfl]
  simp [Grammar.IsRoot, namespaceGrammar]

/-- The names that topic names and namespaces accept, with and without the limit. -/
theorem accepts_iff_isPath (name : Bytes) :
    ((Kind.topicName.validate name).outcome = .valid ↔ IsPath name ∧ name.length ≤ 256) ∧
    ((Kind.topicName.validate name).isValidIgnoringLength ↔ IsPath name) ∧
    ((Kind.namespaceName.validate name).outcome = .valid ↔
      name = [Byte.separator] ∨ IsPath name ∧ name.length ≤ 254) ∧
    ((Kind.namespaceName.validate name).isValidIgnoringLength ↔
      name = [Byte.separator] ∨ IsPath name) := by
  have hroot : name = [Byte.separator] → name.length ≤ 254 := by
    rintro rfl
    decide
  refine ⟨?_, ?_, ?_, ?_⟩
  · rw [← Outcome.isValid_iff, ← Validation.isValid, Kind.isValid_validate_iff]
    exact and_congr_left' (topicGrammar_flaw?_eq_none_iff name)
  · rw [Kind.isValidIgnoringLength_validate_iff]
    exact topicGrammar_flaw?_eq_none_iff name
  · rw [← Outcome.isValid_iff, ← Validation.isValid, Kind.isValid_validate_iff]
    change namespaceGrammar.flaw? name = none ∧ name.length ≤ 254 ↔ _
    rw [namespaceGrammar_flaw?_eq_none_iff, or_and_right, and_iff_left_of_imp hroot]
  · rw [Kind.isValidIgnoringLength_validate_iff]
    exact namespaceGrammar_flaw?_eq_none_iff name

end RosNames
