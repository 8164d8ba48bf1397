import RosNames.Proofs.Path

/-!
# Joining and splitting qualified names

Two paths one after the other are a path, and in front of any slash but the first a path falls into
two. So joining names can only make them too long, and the limit on namespaces is the one that keeps
room for the shortest topic name: a slash and a letter.
-/

namespace RosNames

/-- Nothing is wrong with the name as a topic name but perhaps its length. -/
def IsQualified (name : Bytes) : Prop :=
  (Kind.topicName.validate name).outcome = .valid ∨
    (Kind.topicName.validate name).outcome = .tooLong

theorem joinTokens_append (tokens more : List Bytes) :
    joinTokens (tokens ++ more) = joinTokens tokens ++ joinTokens more := List.flatMap_append

theorem IsPath.append {a b : Bytes} (ha : IsPath a) (hb : IsPath b) : IsPath (a ++ b) := by
  obtain ⟨tokens, hne, htokens, rfl⟩ := ha
  obtain ⟨more, -, hmore, rfl⟩ := hb
  refine ⟨tokens ++ more, List.append_ne_nil_of_left_ne_nil hne more, fun t ht => ?_,
    (joinTokens_append tokens more).symm⟩
  rcases List.mem_append.mp ht with ht | ht
  · exact htokens t ht
  · exact hmore t ht

theorem faultAfter?_append_left {front : Bytes} (tail : Bytes) {i : Nat}
    (h : faultAfter? (front ++ tail) i = none) : faultAfter? front i = none := by
  rcases Nat.lt_or_ge (i + 1) front.length with hi | hi
  · rwa [faultAfter?_append_of_lt hi] at h
  · have hnone : front[i + 1]? = none := List.getElem?_eq_none hi
    simp [faultAfter?, hnone]

/-- What a name holds in front of a later slash keeps the rules, as `IsWellFormed.drop` says of what
it holds from there on. -/
theorem IsWellFormed.take {front rest : Bytes} (hne : front ≠ [])
    (h : IsWellFormed (front ++ Byte.separator :: rest)) : IsWellFormed front where
  head := by
    obtain ⟨b, front, rfl⟩ := List.exists_cons_of_ne_nil hne
    exact h.head
  last := by
    intro hlast
    -- the last byte and the slash would be an empty token
    obtain ⟨init, rfl⟩ := List.getLast?_eq_some_iff.mp hlast
    have hpair := h.starts (init.length + 0)
    rw [List.append_assoc, faultAfter?_append_right] at hpair
    cases hpair
  allowed b hb := h.allowed b (List.mem_append_left _ hb)
  starts i := faultAfter?_append_left _ (h.starts i)

theorem isPath_append_separator_iff {front : Bytes} (hne : front ≠ []) (rest : Bytes) :
    IsPath (front ++ Byte.separator :: rest) ↔ IsPath front ∧ IsPath (Byte.separator :: rest) := by
  constructor
  · intro h
    exact ⟨(h.isWellFormed.take hne).isPath, (h.isWellFormed.drop front).isPath⟩
  · rintro ⟨hfront, hrest⟩
    exact hfront.append hrest

theorem isQualified_iff_isPath (name : Bytes) : IsQualified name ↔ IsPath name := by
  rw [← topicGrammar_flaw?_eq_none_iff]
  have hlength := Kind.isValidIgnoringLength_validate_iff .topicName name
  rw [Validation.isValidIgnoringLength, Bool.or_eq_true, Validation.isValid, Validation.isTooLong,
    Outcome.isValid_iff, Outcome.isTooLong_iff] at hlength
  exact hlength

theorem IsPath.validate_topicName {name : Bytes} (h : IsPath name) :
    Kind.topicName.validate name =
      if name.length ≤ 256 then ⟨.valid, none⟩ else ⟨.tooLong, some 255⟩ := by
  have hflaw := (topicGrammar_flaw?_eq_none_iff name).mpr h
  split
  case isTrue hshort => exact Kind.validate_of_short .topicName name hflaw hshort
  case isFalse hlong => exact Kind.validate_of_long .topicName name hflaw (Nat.lt_of_not_le hlong)

theorem isValid_topicName_iff (name : Bytes) :
    (Kind.topicName.validate name).isValid ↔ IsPath name ∧ name.length ≤ 256 := by
  rw [Kind.isValid_validate_iff]
  exact and_congr_left' (topicGrammar_flaw?_eq_none_iff name)

theorem isValid_namespaceName_iff {name : Bytes} (h : name ≠ [Byte.separator]) :
    (Kind.namespaceName.validate name).isValid ↔ IsPath name ∧ name.length ≤ 254 := by
  rw [Kind.isValid_validate_iff]
  refine and_congr_left' ((namespaceGrammar_flaw?_eq_none_iff name).trans ?_)
  exact or_iff_right h

theorem IsPath.validate_append {a b : Bytes} (ha : IsPath a) (hb : IsPath b) :
    Kind.topicName.validate (a ++ b) =
      if a.length + b.length ≤ 256 then ⟨.valid, none⟩ else ⟨.tooLong, some 255⟩ := by
  rw [← List.length_append]
  exact (ha.append hb).validate_topicName

def shortestTopic : Bytes := [Byte.separator, 0x58]

theorem isPath_shortestTopic : IsPath shortestTopic := by
  have htoken : IsToken [0x58] := ⟨0x58, [], rfl, by decide, by simp⟩
  exact ⟨[[0x58]], by simp, by simpa using htoken, rfl⟩

theorem isValid_namespaceName_iff_append {name : Bytes} (hne : name ≠ [])
    (hroot : name ≠ [Byte.separator]) : (Kind.namespaceName.validate name).isValid ↔
      (Kind.topicName.validate (name ++ shortestTopic)).isValid := by
  have hpath : IsPath (name ++ shortestTopic) ↔ IsPath name :=
    (isPath_append_separator_iff hne [0x58]).trans (and_iff_left isPath_shortestTopic)
  have hlength : (name ++ shortestTopic).length = name.length + 2 := List.length_append
  rw [isValid_namespaceName_iff hroot, isValid_topicName_iff, hpath, hlength]
  exact and_congr_right fun _ => by omega

/-- Qualified names can be joined and split, and nothing but the length comes of it; a namespace is
as long as it can be with a topic name still to follow. -/
theorem qualified_names_join_and_split :
    (∀ a b, IsQualified a → IsQualified b → IsQualified (a ++ b) ∧
      Kind.topicName.validate (a ++ b) =
        if a.length + b.length ≤ 256 then ⟨.valid, none⟩ else ⟨.tooLong, some 255⟩) ∧
    (∀ name p, IsQualified name → 0 < p → name[p]? = some Byte.separator →
      IsQualified (name.take p) ∧ IsQualified (name.drop p)) ∧
    (∀ ns, ns ≠ [] → ns ≠ [Byte.separator] → ((Kind.namespaceName.validate ns).isValid ↔
      (Kind.topicName.validate (ns ++ shortestTopic)).isValid)) ∧
    (∀ ns topic, (Kind.namespaceName.validate ns).isValid → ns ≠ [Byte.separator] →
      (Kind.topicName.validate topic).isValid → Kind.topicName.validate (ns ++ topic) =
        if ns.length + topic.length ≤ 256 then ⟨.valid, none⟩ else ⟨.tooLong, some 255⟩) := by
  simp only [isQualified_iff_isPath]
  refine ⟨fun a b ha hb => ⟨ha.append hb, ha.validate_append hb⟩, ?_, ?_, ?_⟩
  · intro name p hname hp hslash
    obtain ⟨hlt, hget⟩ := List.getElem?_eq_some_iff.mp hslash
    have hdrop : name.drop p = Byte.separator :: name.drop (p + 1) := by
      rw [List.drop_eq_getElem_cons hlt, hget]
    have htake : name.take p ≠ [] := by
      rw [Ne, List.take_eq_nil_iff]
      rintro (rfl | rfl)
      · exact absurd hp (Nat.lt_irrefl 0)
      · exact absurd hlt (Nat.not_lt_zero p)
    rw [hdrop]
    refine (isPath_append_separator_iff htake _).mp ?_
    rwa [← hdrop, List.take_append_drop]
  · exact fun ns hne hroot => isValid_namespaceName_iff_append hne hroot
  · intro ns topic hns hroot htopic
    exact ((isValid_namespaceName_iff hroot).mp hns).1.validate_append
      ((isValid_topicName_iff topic).mp htopic).1

/-- The namespace `/ab` and the topic `/c` join to `/ab/c`, which can be split again. -/
theorem ab_and_c_join_and_split :
    let ns : Bytes := [0x2f, 0x61, 0x62]
    let topic : Bytes := [0x2f, 0x63]
    Kind.topicName.validate (ns ++ topic) = ⟨.valid, none⟩ ∧
    (IsQualified ((ns ++ topic).take 3) ∧ IsQualified ((ns ++ topic).drop 3)) ∧
    (Kind.topicName.validate (ns ++ shortestTopic)).isValid := by
  intro ns topic
  obtain ⟨hjoin, hsplit, hroom, hbelow⟩ := qualified_names_join_and_split
  have hns : (Kind.namespaceName.validate ns).isValid := by decide
  have htopic : (Kind.topicName.validate topic).isValid := by decide
  have hqualified : IsQualified (ns ++ topic) :=
    (hjoin ns topic (Or.inl (by decide)) (Or.inl (by decide))).1
  exact ⟨hbelow ns topic hns (by decide) htopic,
    hsplit (ns ++ topic) 3 hqualified (by decide) (by decide),
    (hroom ns (by decide) (by decide)).mp hns⟩

end RosNames
