import RosNames.Proofs.Independence
import RosNames.Proofs.TextBlock

/-!
# Runs that are interrupted

Nothing but a caret that would stand too far to the right keeps a run from its end. Objects have no
caret. As text, the rules for which a name is looked through may blame a byte at any position, and
the first name with such a byte beyond the widest line ends the run: its message is written, and of
the names behind it nothing. All other rules blame a byte within the limit on the length of names.
-/

namespace RosNames

/-- The byte to blame may stand anywhere, however long a name may be. -/
def Outcome.isScanned {s : Shape} : Outcome s → Bool
  | trailingSlash => true
  | unallowedByte => true
  | repeatedSlash => true
  | numericToken => true
  | _ => false

theorem Outcome.fault_of_not_isScanned {s : Shape} {fault : Fault} (hrule : fault.rule ∈ s.rules)
    (h : (ofFault s fault).isScanned = false) :
    fault = .tooLong ∨ fault = .emptyName ∨ fault = .relative ∨ fault = .leadingDigit := by
  revert hrule h
  cases s <;> cases fault <;> decide

theorem Grammar.index_lt_maxLength {g : Grammar} {name : Bytes} {f : Finding}
    (h : g.check name = some f) (hf : (Outcome.ofFault g.shape f.fault).isScanned = false) :
    f.index < g.maxLength := by
  have hbreaks := g.breaks_of_check name h
  have hfront {fault : Fault} (hzero : f = ⟨fault, 0⟩) : f.index < g.maxLength := by
    rw [hzero]
    exact g.maxLength_pos
  rcases Outcome.fault_of_not_isScanned (g.rule_fault_mem_of_check name h) hf with
    hfault | hfault | hfault | hfault
  all_goals rw [hfault] at hbreaks
  · rw [hbreaks.2]
    exact Nat.sub_lt g.maxLength_pos Nat.one_pos
  · exact hfront hbreaks.2
  · exact hfront hbreaks.2
  · exact hfront hbreaks.2

namespace Cli

theorem maxLength_lt_maxColumns (k : Kind) : k.grammar.maxLength < maxColumns := by
  cases k <;> decide

theorem isScanned_of_maxColumns_le {k : Kind} {name : Bytes} {o : Outcome k.shape} {i : Nat}
    (h : k.validate name = ⟨o, some i⟩) (hfar : maxColumns ≤ i) :
    o.isScanned ∧ maxColumns < name.length := by
  have hindex : (k.validate name).index = some i := by rw [h]
  have hcut := k.isSafeCut_of_validate hindex
  constructor
  · obtain ⟨f, hcheck, rfl, rfl⟩ := (k.validate_eq_some_iff_check name o i).mp h
    rw [← Bool.not_eq_false]
    intro hscanned
    have hlt := Grammar.index_lt_maxLength hcheck hscanned
    have hlimit := maxLength_lt_maxColumns k
    omega
  · have hne : name ≠ [] := by
      intro hnil
      have hzero : maxColumns ≤ 0 := hcut.eq_zero hnil ▸ hfar
      exact absurd hzero (by decide)
    exact Nat.lt_of_le_of_lt hfar (hcut.lt_length hne)

namespace Settings

variable {s : Settings} {name : String} {names : List String}

/-- The name is written as an object, or no caret is needed that is too far to the right. -/
def Fits (s : Settings) (name : String) : Prop :=
  s.json ∨ ∀ i, (s.verdict name).index = some i → i < maxColumns

theorem fits_of_length_le (h : (Utf8.encode name).length ≤ maxColumns) : s.Fits name := by
  refine Or.inr ?_
  intro i hindex
  apply Nat.lt_of_not_le
  intro hfar
  have hverdict : s.verdict name = ⟨(s.verdict name).outcome, some i⟩ := by rw [← hindex]
  exact absurd h (Nat.not_le.mpr (isScanned_of_maxColumns_le hverdict hfar).2)

theorem exists_block_iff_fits :
    (∃ output, s.block name (s.report name) = .ok output) ↔ s.Fits name := by
  rw [Fits]
  cases hs : s.json with
  | true =>
    simp [block_of_json hs]
  | false =>
    simp only [block_of_not_json hs, Bool.false_eq_true, false_or]
    apply Iff.trans _ (exists_isBlockOf_iff s.kind name)
    constructor
    · rintro ⟨output, houtput⟩
      obtain ⟨lines, hlines, -⟩ := (textBlock_eq_ok_iff output).mp houtput
      exact ⟨lines, hlines⟩
    · rintro ⟨lines, hlines⟩
      exact ⟨_, textBlock_of_isBlockOf hlines⟩

theorem returns_singleton_iff_fits : (s.withNames [name]).Returns ↔ s.Fits name := by
  rw [returns_iff_blocks, ← exists_block_iff_fits]
  constructor
  · rintro ⟨outputs, houtputs⟩
    obtain ⟨output, rest, houtput, -, -⟩ := (s.blocks_cons_eq_ok_iff name [] outputs).mp houtputs
    exact ⟨output, houtput⟩
  · rintro ⟨output, houtput⟩
    exact ⟨[output], (s.blocks_cons_eq_ok_iff name [] _).mpr ⟨output, [], houtput, rfl, rfl⟩⟩

theorem returns_iff_fits : s.Returns ↔ ∀ name ∈ s.names, s.Fits name := by
  simp only [← returns_singleton_iff_fits]
  exact s.returns_iff_forall s.names

theorem writtenOf_eq {output : String} (h : s.block name (s.report name) = .ok output) :
    s.writtenOf name = output := by
  have hblocks : (s.withNames [name]).blocks [name] = .ok [output] :=
    (s.blocks_cons_eq_ok_iff name [] _).mpr ⟨output, [], h, rfl, rfl⟩
  rw [writtenOf, written_of_blocks hblocks, String.join_cons, String.join_nil, String.append_empty]

theorem writtenOf_ne_empty (h : s.Fits name) : s.writtenOf name ≠ "" := by
  obtain ⟨output, houtput⟩ := exists_block_iff_fits.mpr h
  rw [writtenOf_eq houtput]
  cases hs : s.json with
  | true =>
    rw [block_of_json hs] at houtput
    rw [← Except.ok.inj houtput]
    simp [jsonLine]
  | false =>
    rw [block_of_not_json hs] at houtput
    obtain ⟨lines, hlines, rfl⟩ := (textBlock_eq_ok_iff output).mp houtput
    cases hlines with
    | valid => exact unlines_cons_ne_empty _ _
    | empty => exact unlines_cons_ne_empty _ _
    | fault => exact unlines_cons_ne_empty _ _

theorem checkNames_cons_eq_error_iff (i : Interruption) :
    s.checkNames (name :: names) = .error i ↔ s.checkName name = .error i ∨
      ∃ a j, s.checkName name = .ok a ∧ s.checkNames names = .error j ∧ i = j.after a := by
  rw [checkNames]
  cases s.checkName name with
  | error j => simp
  | ok a =>
    cases s.checkNames names with
    | error j => simpa using eq_comm
    | ok b => simp

theorem block_of_checkName_error {i : Interruption} (h : s.checkName name = .error i) :
    s.block name (s.report name) = .error i.output := by
  cases hblock : s.block name (s.report name) with
  | error written =>
    simp only [checkName_eq, hblock] at h
    obtain rfl := Except.error.inj h
    rfl
  | ok output => cases (s.checkName_of_block name hblock).symm.trans h

/-- A run is interrupted by one name, and what it has written is the blocks of the names in front of
it and the beginning of its own. -/
theorem checkNames_eq_error {i : Interruption} (h : s.checkNames names = .error i) :
    ∃ front name back t written, names = front ++ name :: back ∧ s.checkNames front = .ok t ∧
      s.block name (s.report name) = .error written ∧ i.output = t.output ++ written := by
  induction names generalizing i with
  | nil => cases h
  | cons name names ih =>
    rcases (checkNames_cons_eq_error_iff i).mp h with h | ⟨a, j, ha, hj, rfl⟩
    · exact ⟨[], name, names, ⟨"", 0, []⟩, i.output, rfl, rfl, block_of_checkName_error h,
        String.empty_append.symm⟩
    · obtain ⟨front, wide, back, t, written, rfl, ht, hwide, houtput⟩ := ih hj
      refine ⟨name :: front, wide, back, a.append t, written, rfl,
        (s.checkNames_cons_eq_ok_iff name front _).mpr ⟨a, t, ha, ht, rfl⟩, hwide, ?_⟩
      calc (j.after a).output
          = a.output ++ (t.output ++ written) := by rw [← houtput]; rfl
        _ = (a.append t).output ++ written := (String.append_assoc ..).symm

theorem run_withNames_of_checkNames {t : Summary} (h : s.checkNames names = .ok t) :
    (s.withNames names).Returns ∧ (s.withNames names).written = t.output := by
  obtain ⟨outputs, houtputs, rfl⟩ := (s.checkNames_eq_ok_iff names t).mp h
  exact ⟨(returns_iff_blocks _).mpr ⟨outputs, houtputs⟩, written_of_blocks houtputs⟩

/-- The output has the blocks of some names, and of the next all but the caret, which is too far to
the right. -/
def IsCutOff (s : Settings) (output : String) : Prop :=
  ∃ front name back i reason, s.names = front ++ name :: back ∧ (s.withNames front).Returns ∧
    (s.verdict name).index = some i ∧ maxColumns ≤ i ∧
    output = (s.withNames front).written ++ unlines [message name reason i, name]

theorem isCutOff_of_run {i : Interruption} (h : s.run = .error i) : s.IsCutOff i.output := by
  have hnames : s.checkNames s.names = .error i := by
    rw [run] at h
    cases hc : s.checkNames s.names with
    | error j =>
      rw [hc] at h
      exact h
    | ok t =>
      rw [hc] at h
      cases h
  obtain ⟨front, name, back, t, written, hsplit, ht, hblock, houtput⟩ := checkNames_eq_error hnames
  obtain ⟨hreturns, hwritten⟩ := run_withNames_of_checkNames ht
  cases hs : s.json with
  | true => cases (block_of_json hs name _).symm.trans hblock
  | false =>
    rw [block_of_not_json hs] at hblock
    obtain ⟨j, reason, hindex, hfar, rfl⟩ := textBlock_eq_error hblock
    exact ⟨front, name, back, j, reason, hsplit, hreturns, hindex, hfar, by rw [hwritten, houtput]⟩

end Settings

def slashes (n : Nat) : String := String.ofList (List.replicate n '/')

/-- A run ends with a block for every name and the number of those rejected just if every name fits.
Else it stops below the message of the first that does not: a name of more bytes than the widest
line, in which a byte beyond that width is to blame. -/
theorem run_returns_iff_names_fit (s : Settings) :
    (s.Returns ↔ ∀ name ∈ s.names, s.Fits name) ∧
    (∀ t, s.run = .ok t → t.output = String.join (s.names.map s.writtenOf) ∧
      (∀ name ∈ s.names, s.writtenOf name ≠ "") ∧ t.rejected = s.names.countP (!s.accepts ·)) ∧
    (∀ i, s.run = .error i → s.IsCutOff i.output) ∧
    ∀ name o i, s.verdict name = ⟨o, some i⟩ → maxColumns ≤ i →
      o.isScanned ∧ maxColumns < (Utf8.encode name).length := by
  refine ⟨Settings.returns_iff_fits, ?_, fun i => Settings.isCutOff_of_run,
    fun name o i => isScanned_of_maxColumns_le⟩
  intro t ht
  refine ⟨s.output_of_run s.names ht, ?_, s.rejected_of_run s.names ht⟩
  intro name hname
  exact Settings.writtenOf_ne_empty (Settings.returns_iff_fits.mp ⟨t, ht⟩ name hname)

theorem encode_slashes (n : Nat) : Utf8.encode (slashes n) = List.replicate n Byte.separator := by
  rw [Utf8.encode, slashes, String.toList_ofList]
  induction n with
  | zero => rfl
  | succ n ih =>
    rw [List.replicate_succ, List.flatMap_cons, ih]
    rfl

theorem validate_slashes (n : Nat) :
    Kind.topicName.validate (Utf8.encode (slashes (n + 2))) = ⟨.trailingSlash, some (n + 1)⟩ := by
  have hflaw : topicGrammar.flaw? (List.replicate (n + 2) Byte.separator) =
      some ⟨.trailingSlash, n + 1⟩ := by
    apply (topicGrammar.flaw?_eq_some_iff _ _).mpr
    refine ⟨fun hroot => Bool.false_ne_true hroot.1, ?_⟩
    refine Or.inr ⟨List.cons_ne_nil _ _, Or.inr ⟨rfl, Or.inl ⟨?_, ?_⟩⟩⟩
    · rw [List.getLast?_replicate, if_neg (Nat.succ_ne_zero _)]
    · rw [List.length_replicate, Nat.add_succ_sub_one]
  rw [encode_slashes]
  exact Kind.topicName.validate_of_flaw? _ hflaw

theorem not_fits_slashes (allowTooLong : Bool) (names : List String) {n : Nat}
    (h : maxColumns ≤ n + 1) :
    ¬ Settings.Fits ⟨.topicName, false, allowTooLong, names⟩ (slashes (n + 2)) := by
  rintro (hjson | hfits)
  · cases hjson
  · have hlt : n + 1 < maxColumns := hfits (n + 1) (congrArg Validation.index (validate_slashes n))
    exact absurd hlt (Nat.not_lt.mpr h)

/-- A run over two short names ends, and one with a long name between them is cut off. -/
theorem runs_with_and_without_a_long_name :
    let short : Settings := ⟨.topicName, false, false, ["/a", "/"]⟩
    let long : Settings := ⟨.topicName, false, false, ["/a", slashes 65536, "/"]⟩
    (∃ t, short.run = .ok t ∧ t.rejected = 1 ∧ short.writtenOf "/a" ≠ "") ∧
    (∃ i, long.run = .error i ∧ long.IsCutOff i.output) ∧
    maxColumns < (Utf8.encode (slashes 65536)).length := by
  intro short long
  obtain ⟨hreturns, hblocks, -, -⟩ := run_returns_iff_names_fit short
  obtain ⟨hreturns', -, hcut, hlong⟩ := run_returns_iff_names_fit long
  have hshort : ∀ name ∈ short.names, short.Fits name := by
    have hlengths : ∀ name ∈ short.names, (Utf8.encode name).length ≤ maxColumns := by decide
    intro name hname
    exact Settings.fits_of_length_le (hlengths name hname)
  obtain ⟨t, ht⟩ := hreturns.mpr hshort
  obtain ⟨-, hwritten, hrejected⟩ := hblocks t ht
  refine ⟨⟨t, ht, hrejected.trans (by decide), hwritten "/a" (by simp [short])⟩, ?_, ?_⟩
  · cases hrun : long.run with
    | error i => exact ⟨i, rfl, hcut i hrun⟩
    | ok t =>
      have hfits := hreturns'.mp ⟨t, hrun⟩ (slashes 65536) (by simp [long])
      exact absurd hfits (not_fits_slashes (n := 65534) _ _ (by decide))
  · exact (hlong (slashes 65536) _ _ (validate_slashes 65534) (by decide)).2

/-- Slashes enough are a name at which a run does not end. -/
theorem slashes_interrupt_a_run :
    let s : Settings := ⟨.topicName, false, false, [slashes 65536]⟩
    s.verdict (slashes 65536) = ⟨.trailingSlash, some 65535⟩ ∧ ¬ s.Returns := by
  intro s
  refine ⟨validate_slashes 65534, ?_⟩
  rw [Settings.returns_iff_fits]
  intro hfits
  exact not_fits_slashes (n := 65534) _ _ (by decide) (hfits _ (List.mem_singleton_self _))

end Cli
end RosNames
