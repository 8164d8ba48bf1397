import RosNames.Proofs.Independence
import RosNames.Proofs.Lines
import RosNames.Proofs.TextBlock

/-!
# Output as text

Nothing is escaped in the output as text, so a name may look like a message about another name, and
the name is written again below its message. Still the output can be read back, if no name has a
line break in it. What a message says of a name has no colon, so the name is what stands before the
last colon of the first line; how the rest of that line begins tells the kind. Name and kind fix the
whole block, and behind it the next block begins.
-/

namespace RosNames

namespace Kind

/-- The first two letters of every description of the kind. -/
def initials : Kind → List Char
  | topicName => ['t', 'o']
  | namespaceName => ['n', 'a']
  | nodeName => ['n', 'o']

theorem exists_describe_eq_append {k : Kind} {o : Outcome k.shape} {reason : String}
    (h : k.describe o = some reason) : ∃ rest, reason.toList = k.initials ++ rest := by
  cases k <;> cases o <;> simp only [describe, reduceCtorEq, Option.some.injEq] at h <;> subst h
  all_goals
    rw [String.toList_ofList]
    exact ⟨_, rfl⟩

theorem eq_of_initials_append_eq {k k' : Kind} {rest rest' : List Char}
    (h : k.initials ++ rest = k'.initials ++ rest') : k = k' := by
  cases k <;> cases k' <;> simp_all [initials]

end Kind

namespace Cli

inductive IsSaidOf (k : Kind) : String → Prop
  | valid : IsSaidOf k (" valid " ++ k.keyword)
  | fault {o : Outcome k.shape} {reason : String} (h : k.describe o = some reason) (i : Nat) :
      IsSaidOf k (" " ++ reason ++ " (index " ++ i.repr ++ ")")

variable {k k' : Kind} {name name' said said' : String} {lines lines' : List String}

theorem IsSaidOf.isPlain (h : IsSaidOf k said) : IsPlain said := by
  cases h with
  | valid =>
    have hvalid : IsPlain " valid " := by decide
    exact hvalid.append k.isPlain_keyword
  | fault h i =>
    have hblank : IsPlain " " := by decide
    have hindex : IsPlain " (index " := by decide
    have hend : IsPlain ")" := by decide
    have hreason := hblank.append (Kind.isPlain_of_describe h)
    exact ((hreason.append hindex).append (isPlain_repr i)).append hend

theorem IsSaidOf.opening (h : IsSaidOf k said) : said = " valid " ++ k.keyword ∨
    ∃ rest, said.toList = ' ' :: (k.initials ++ rest) := by
  cases h with
  | valid => exact Or.inl rfl
  | fault h i =>
    obtain ⟨rest, hrest⟩ := Kind.exists_describe_eq_append h
    exact Or.inr ⟨rest ++ (" (index " ++ i.repr ++ ")").toList, by simp [hrest]⟩

theorem valid_ne_opening (k k' : Kind) (rest : List Char) :
    (" valid " ++ k.keyword).toList ≠ ' ' :: (k'.initials ++ rest) := by
  cases k' <;> simp [Kind.initials]

theorem IsSaidOf.kind_unique (h : IsSaidOf k said) (h' : IsSaidOf k' said) : k = k' := by
  rcases h.opening with hvalid | ⟨rest, hrest⟩
  · rcases h'.opening with hvalid' | ⟨rest', hrest'⟩
    · have hkeyword := hvalid.symm.trans hvalid'
      rw [String.append_right_inj] at hkeyword
      exact keyword_injective hkeyword
    · rw [hvalid] at hrest'
      exact absurd hrest' (valid_ne_opening k k' rest')
  · rcases h'.opening with hvalid' | ⟨rest', hrest'⟩
    · rw [hvalid'] at hrest
      exact absurd hrest (valid_ne_opening k' k rest)
    · exact Kind.eq_of_initials_append_eq (List.cons.inj (hrest.symm.trans hrest')).2

theorem message_eq (name reason : String) (i : Nat) :
    message name reason i = name ++ ":" ++ (" " ++ reason ++ " (index " ++ i.repr ++ ")") := by
  have hcolon : ": " = ":" ++ " " := rfl
  simp only [message, hcolon, String.append_assoc]

theorem IsBlockOf.exists_cons (h : IsBlockOf k name lines) :
    ∃ said rest, lines = (name ++ ":" ++ said) :: rest ∧ IsSaidOf k said := by
  cases h with
  | valid =>
    have hcolon : ": valid " = ":" ++ " valid " := rfl
    exact ⟨_, [], by rw [hcolon, ← String.append_assoc, String.append_assoc], .valid⟩
  | empty _ _ hreason => exact ⟨_, [], by rw [message_eq], .fault hreason _⟩
  | fault _ _ hreason => exact ⟨_, _, by rw [message_eq], .fault hreason _⟩

/-- A block tells its name and its kind, and where it ends. -/
theorem IsBlockOf.append_inj (h : IsBlockOf k name lines) (h' : IsBlockOf k' name' lines')
    (hname : '\n' ∉ name.toList) (hname' : '\n' ∉ name'.toList) {rest rest' : String}
    (heq : unlines lines ++ rest = unlines lines' ++ rest') :
    k = k' ∧ name = name' ∧ rest = rest' := by
  obtain ⟨said, more, hlines, hsaid⟩ := h.exists_cons
  obtain ⟨said', more', hlines', hsaid'⟩ := h'.exists_cons
  have hfirst : '\n' ∉ (name ++ ":" ++ said).toList := by
    simp [hname, hsaid.isPlain.newline_notMem]
  have hfirst' : '\n' ∉ (name' ++ ":" ++ said').toList := by
    simp [hname', hsaid'.isPlain.newline_notMem]
  have hcut : name ++ ":" ++ said = name' ++ ":" ++ said' := by
    rw [hlines, hlines', unlines_cons_append, unlines_cons_append] at heq
    exact (append_newline_inj hfirst hfirst' heq).1
  obtain ⟨rfl, rfl⟩ := append_colon_inj hsaid.isPlain.colon_notMem hsaid'.isPlain.colon_notMem hcut
  obtain rfl := hsaid.kind_unique hsaid'
  have hblock : unlines lines = unlines lines' :=
    Except.ok.inj ((textBlock_of_isBlockOf h).symm.trans (textBlock_of_isBlockOf h'))
  rw [hblock, String.append_right_inj] at heq
  exact ⟨rfl, rfl, heq⟩

/-- The text is a block for each name, in the order of the names. -/
def IsTextOf (k : Kind) : List String → String → Prop
  | [], output => output = ""
  | name :: names, output => ∃ lines rest, output = unlines lines ++ rest ∧
      IsBlockOf k name lines ∧ IsTextOf k names rest

theorem isTextOf_of_blocks {s : Settings} (hs : s.json = false) {names outputs : List String}
    (h : s.blocks names = .ok outputs) : IsTextOf s.kind names (String.join outputs) := by
  induction names generalizing outputs with
  | nil =>
    obtain rfl : [] = outputs := Except.ok.inj h
    rfl
  | cons name names ih =>
    obtain ⟨output, rest, houtput, hrest, rfl⟩ := (s.blocks_cons_eq_ok_iff name names outputs).mp h
    rw [Settings.block_of_not_json hs] at houtput
    obtain ⟨lines, hlines, rfl⟩ := (textBlock_eq_ok_iff output).mp houtput
    exact ⟨lines, String.join rest, String.join_cons, hlines, ih hrest⟩

theorem isTextOf_of_run {s : Settings} (hs : s.json = false) {t : Summary} (h : s.run = .ok t) :
    IsTextOf s.kind s.names t.output := by
  obtain ⟨outputs, houtputs, rfl⟩ := (s.run_eq_ok_iff t).mp h
  exact isTextOf_of_blocks hs houtputs

theorem unlines_append_ne_empty (h : IsBlockOf k name lines) (rest : String) :
    unlines lines ++ rest ≠ "" := by
  obtain ⟨said, more, rfl, -⟩ := h.exists_cons
  intro hempty
  exact unlines_cons_ne_empty _ more (String.append_eq_empty_iff.mp hempty).1

theorem IsTextOf.unique {names names' : List String} {output : String}
    (h : IsTextOf k names output) (h' : IsTextOf k' names' output)
    (hnames : ∀ name ∈ names, '\n' ∉ name.toList) (hnames' : ∀ name ∈ names', '\n' ∉ name.toList) :
    names = names' ∧ (names ≠ [] → k = k') := by
  induction names generalizing names' output with
  | nil =>
    obtain rfl : output = "" := h
    cases names' with
    | nil => exact ⟨rfl, fun hne => absurd rfl hne⟩
    | cons name' names' =>
      obtain ⟨lines', rest', hempty, hlines', -⟩ := h'
      exact absurd hempty.symm (unlines_append_ne_empty hlines' rest')
  | cons name names ih =>
    obtain ⟨lines, rest, rfl, hlines, hrest⟩ := h
    cases names' with
    | nil => exact absurd h' (unlines_append_ne_empty hlines rest)
    | cons name' names' =>
      obtain ⟨lines', rest', heq, hlines', hrest'⟩ := h'
      rw [List.forall_mem_cons] at hnames hnames'
      obtain ⟨rfl, rfl, rfl⟩ := hlines.append_inj hlines' hnames.1 hnames'.1 heq
      obtain ⟨rfl, -⟩ := ih hrest hrest' hnames.2 hnames'.2
      exact ⟨rfl, fun _ => rfl⟩

/-- One line for a name that is valid or empty. For any other the message, the name itself and a
caret. -/
structure IsLaidOut (k : Kind) (name : String) (lines : List String) : Prop where
  unbroken : ∀ line ∈ lines, '\n' ∉ line.toList
  one : (k.validate (Utf8.encode name)).isValid ∨ name = "" → ∃ line, lines = [line]
  three : ¬ (k.validate (Utf8.encode name)).isValid → name ≠ "" →
    ∃ reason i, (k.validate (Utf8.encode name)).description = some reason ∧
      (k.validate (Utf8.encode name)).index = some i ∧
      lines = [message name reason i, name, caret i]

theorem newline_notMem_message (hname : '\n' ∉ name.toList) {o : Outcome k.shape} {reason : String}
    (h : k.describe o = some reason) (i : Nat) : '\n' ∉ (message name reason i).toList := by
  have hsaid := (IsSaidOf.fault h i).isPlain.newline_notMem
  rw [message_eq]
  simpa [hname] using hsaid

theorem newline_notMem_caret (spaces : Nat) : '\n' ∉ (caret spaces).toList := by
  simp [caret]

theorem IsBlockOf.isLaidOut (h : IsBlockOf k name lines) (hname : '\n' ∉ name.toList) :
    IsLaidOut k name lines := by
  cases h with
  | valid h =>
    have hkeyword := k.isPlain_keyword.newline_notMem
    exact {
      unbroken := by simp [hname, hkeyword]
      one := fun _ => ⟨_, rfl⟩
      three := fun hinvalid => absurd h hinvalid }
  | empty hempty hindex hreason =>
    exact {
      unbroken := by simpa using newline_notMem_message hname hreason _
      one := fun _ => ⟨_, rfl⟩
      three := fun _ hne => absurd hempty hne }
  | fault hne hindex hreason hfits =>
    have hmessage := newline_notMem_message hname hreason
    have hinvalid : ¬ (k.validate (Utf8.encode name)).isValid := by
      simp [← k.index_validate_eq_none_iff, hindex]
    exact {
      unbroken := by simpa using ⟨hmessage _, hname, newline_notMem_caret _⟩
      one := fun h => (h.elim hinvalid hne).elim
      three := fun _ _ => ⟨_, _, hreason, hindex, rfl⟩ }

/-- A run writes the block of each name, one line or three, and from what it writes the names and
their kind can be read, even if a name looks like something that is written about another. -/
theorem text_output_is_unambiguous :
    (∀ k allowTooLong names t, Settings.run ⟨k, false, allowTooLong, names⟩ = .ok t →
      IsTextOf k names t.output) ∧
    (∀ k name lines, '\n' ∉ name.toList → IsBlockOf k name lines → IsLaidOut k name lines) ∧
    ∀ k k' allowTooLong allowTooLong' names names' t t', names ≠ [] →
      (∀ name ∈ names, '\n' ∉ name.toList) → (∀ name ∈ names', '\n' ∉ name.toList) →
      Settings.run ⟨k, false, allowTooLong, names⟩ = .ok t →
      Settings.run ⟨k', false, allowTooLong', names'⟩ = .ok t' →
      t.output = t'.output → k = k' ∧ names = names' := by
  refine ⟨?_, fun k name lines hname h => h.isLaidOut hname, ?_⟩
  · intro k allowTooLong names t h
    exact isTextOf_of_run rfl h
  · intro k k' allowTooLong allowTooLong' names names' t t' hne hnames hnames' h h' heq
    have htext : IsTextOf k names t.output := isTextOf_of_run rfl h
    have htext' : IsTextOf k' names' t.output := heq ▸ isTextOf_of_run rfl h'
    obtain ⟨hsame, hkind⟩ := htext.unique htext' hnames hnames'
    exact ⟨hkind hne, hsame⟩

/-- The second line about the name `/x: valid topic` is all that is written about the topic name
`/x`. The two names are told apart all the same. -/
theorem text_of_a_name_like_a_message :
    let name := "/x: valid topic"
    let reason := "topic name must not contain characters other than alphanumerics, '_', or '/'"
    IsLaidOut .topicName "/x" [name] ∧
    IsLaidOut .topicName name [message name reason 2, name, caret 2] ∧
    ∃ t t', Settings.run ⟨.topicName, false, false, [name]⟩ = .ok t ∧
      Settings.run ⟨.topicName, false, true, ["/x"]⟩ = .ok t' ∧
      IsTextOf .topicName [name] t.output ∧ IsTextOf .topicName ["/x"] t'.output ∧
      t.output ≠ t'.output := by
  intro name reason
  obtain ⟨htext, hlayout, hunique⟩ := text_output_is_unambiguous
  have hblock : IsBlockOf .topicName "/x" [name] := .valid (by decide)
  have hblock' : IsBlockOf .topicName name [message name reason 2, name, caret 2] :=
    .fault (by decide) (by decide) (by decide) (by decide)
  obtain ⟨t, ht⟩ : ∃ t, Settings.run ⟨.topicName, false, false, ["/x: valid topic"]⟩ = .ok t :=
    ⟨_, rfl⟩
  obtain ⟨t', ht'⟩ : ∃ t', Settings.run ⟨.topicName, false, true, ["/x"]⟩ = .ok t' :=
    ⟨_, rfl⟩
  have hdiffer : t.output ≠ t'.output := by
    intro heq
    have hsame := hunique _ _ _ _ _ _ _ _ (by decide) (by decide) (by decide) ht ht' heq
    exact absurd hsame.2 (by decide)
  exact ⟨hlayout _ _ _ (by decide) hblock, hlayout _ _ _ (by decide) hblock', t, t', ht, ht',
    htext _ _ _ _ ht, htext _ _ _ _ ht', hdiffer⟩

end Cli
end RosNames
