import RosNames.Proofs.SessionRun

/-!
# Zero bytes in a buffer

A plain call takes the bytes in front of the first zero byte for the name, a sized call as many as
it is told, and neither looks further. A zero byte is allowed in no name. A sized call over a name
that holds one finds a fault no further right, unless the ends of a path are wrong, so a name that
it accepts is also read as a whole by a plain call.
-/

namespace RosNames

/-- An outcome for names of allowed bytes only: the name is valid or too long, or some token of it
is empty or begins with a digit. -/
def Outcome.IsOfAllowedBytes {s : Shape} : Outcome s → Prop
  | .valid | .tooLong | .repeatedSlash | .numericToken | .leadingDigit => True
  | .emptyName | .relative | .trailingSlash | .unallowedByte => False

/-- The faults of a name with a zero byte at `p`, and the positions to blame. -/
inductive ZeroFault (name : Bytes) (p : Nat) : {s : Shape} → Outcome s → Nat → Prop
  | relative : ZeroFault name p Outcome.relative 0
  | trailingSlash : ZeroFault name p Outcome.trailingSlash (name.length - 1)
  | unallowedByte {s : Shape} {i : Nat} (hle : i ≤ p) :
      ZeroFault name p (Outcome.unallowedByte (s := s)) i

theorem ZeroFault.not_isOfAllowedBytes {name : Bytes} {p i : Nat} {s : Shape} {o : Outcome s}
    (h : ZeroFault name p o i) : ¬ o.IsOfAllowedBytes := by
  cases h <;> exact id

namespace Grammar

variable {g : Grammar} {name : Bytes} {p : Nat}

theorem allows_zero (g : Grammar) : g.allows 0 = false := by
  have htoken : Byte.isTokenByte 0 = false := by decide
  have hslash : Byte.isSeparator 0 = false := by decide
  simp [allows, htoken, hslash]

theorem not_keeps_allowedBytes_of_zero (hzero : name[p]? = some 0) :
    ¬ g.Keeps name .allowedBytes := by
  intro h
  have hallows : g.allows 0 := h 0 (List.mem_of_getElem? hzero)
  rw [g.allows_zero] at hallows
  cases hallows

theorem index_le_of_zero (hzero : name[p]? = some 0) {f : Finding}
    (h : g.Breaks name .allowedBytes f) : f.index ≤ p := by
  apply Nat.le_of_not_lt
  intro hlt
  have hallows : g.allows 0 := h.2.2 p hlt 0 hzero
  rw [g.allows_zero] at hallows
  cases hallows

theorem flaw?_ne_none_of_zero (hzero : name[p]? = some 0) : g.flaw? name ≠ none := by
  rw [Ne, flaw?_eq_none_iff]
  rintro (⟨-, rfl⟩ | hkeeps)
  · have hmem : (0 : UInt8) ∈ [Byte.separator] := List.mem_of_getElem? hzero
    exact absurd hmem (by decide)
  · exact not_keeps_allowedBytes_of_zero hzero (hkeeps _ g.shape.allowedBytes_mem_flawRules)

/-- Of the rules for paths, only those on the two ends come before the one on the bytes. -/
theorem fault_of_zero_of_path (hs : g.shape = .path) (hzero : name[p]? = some 0) {f : Finding}
    (h : g.flaw? name = some f) : f = ⟨.relative, 0⟩ ∨ f = ⟨.trailingSlash, name.length - 1⟩ ∨
      f.fault = .unallowedByte ∧ f.index ≤ p := by
  have hfirst := ((g.flaw?_eq_some_iff name f).mp h).2
  rw [hs] at hfirst
  rcases hfirst with h | ⟨-, h | ⟨-, h | ⟨-, h | ⟨hkeeps, -⟩⟩⟩⟩
  · obtain ⟨rfl, -⟩ := h
    simp at hzero
  · exact Or.inl h.2
  · exact Or.inr (Or.inl h.2)
  · exact Or.inr (Or.inr ⟨h.1, index_le_of_zero hzero h⟩)
  · exact absurd hkeeps (not_keeps_allowedBytes_of_zero hzero)

theorem fault_of_zero_of_token (hs : g.shape = .token) (hzero : name[p]? = some 0) {f : Finding}
    (h : g.flaw? name = some f) : f.fault = .unallowedByte ∧ f.index ≤ p := by
  have hfirst := ((g.flaw?_eq_some_iff name f).mp h).2
  rw [hs] at hfirst
  rcases hfirst with h | ⟨-, h | ⟨hkeeps, -⟩⟩
  · obtain ⟨rfl, -⟩ := h
    simp at hzero
  · exact ⟨h.1, index_le_of_zero hzero h⟩
  · exact absurd hkeeps (not_keeps_allowedBytes_of_zero hzero)

end Grammar

theorem zeroFault_of_finding {g : Grammar} {name : Bytes} {p : Nat} (hzero : name[p]? = some 0)
    {f : Finding} (h : g.flaw? name = some f) :
    ZeroFault name p (Outcome.ofFault g.shape f.fault) f.index := by
  obtain ⟨fault, index⟩ := f
  cases hs : g.shape with
  | path =>
    rcases g.fault_of_zero_of_path hs hzero h with h | h | ⟨rfl, hle⟩
    · obtain ⟨rfl, rfl⟩ := Finding.mk.inj h
      exact .relative
    · obtain ⟨rfl, rfl⟩ := Finding.mk.inj h
      exact .trailingSlash
    · exact .unallowedByte hle
  | token =>
    obtain ⟨rfl, hle⟩ := g.fault_of_zero_of_token hs hzero h
    exact .unallowedByte hle

theorem Kind.validate_of_zero (k : Kind) {name : Bytes} {p : Nat} (hzero : name[p]? = some 0) :
    ∃ o i, k.validate name = ⟨o, some i⟩ ∧ ZeroFault name p o i := by
  obtain ⟨f, hf⟩ := Option.ne_none_iff_exists'.mp (Grammar.flaw?_ne_none_of_zero hzero)
  exact ⟨_, f.index, k.validate_of_flaw? name hf, zeroFault_of_finding hzero hf⟩

def FirstZeroAt (buffer : Bytes) (n : Nat) : Prop := buffer[n]? = some 0 ∧ 0 ∉ buffer.take n

theorem Terminated.read_eq_take {buffer : Bytes} {n : Nat} (h : FirstZeroAt buffer n) :
    read buffer = buffer.take n := by
  obtain ⟨hzero, hfront⟩ := h
  obtain ⟨hn, hget⟩ := List.getElem?_eq_some_iff.mp hzero
  have hdrop : buffer.drop n = 0 :: buffer.drop (n + 1) := by
    rw [List.drop_eq_getElem_cons hn, hget]
  have hbytes : ∀ b ∈ buffer.take n, (b != 0) = true := by
    intro b hb
    have hne : b ≠ 0 := fun h => hfront (h ▸ hb)
    simpa using hne
  calc read buffer = read (buffer.take n ++ 0 :: buffer.drop (n + 1)) := by
        rw [← hdrop, List.take_append_drop]
    _ = buffer.take n := by
        rw [read, List.takeWhile_append_of_pos hbytes]
        simp

theorem take_eq_of_take_succ_eq {buffer other : Bytes} {n : Nat}
    (h : buffer.take (n + 1) = other.take (n + 1)) : buffer.take n = other.take n := by
  have hshorter := congrArg (List.take n) h
  simpa [List.take_take] using hshorter

theorem FirstZeroAt.congr {buffer other : Bytes} {n : Nat} (h : FirstZeroAt buffer n)
    (hsame : buffer.take (n + 1) = other.take (n + 1)) : FirstZeroAt other n := by
  have htake : buffer.take n = other.take n := take_eq_of_take_succ_eq hsame
  have hget : buffer[n]? = other[n]? := by
    have hlast := congrArg (fun bytes => bytes[n]?) hsame
    simpa [List.getElem?_take] using hlast
  exact ⟨hget ▸ h.1, htake ▸ h.2⟩

theorem firstZeroAt_append {name : Bytes} (h : 0 ∉ name) (rest : Bytes) :
    FirstZeroAt (name ++ 0 :: rest) name.length := by
  constructor
  · simp
  · simpa using h

namespace Entry

def callOn (k : Kind) (buffer : Bytes) (extent : Extent) (lendsResult lendsIndex : Bool) : Call :=
  ⟨k, some buffer, extent, lendsResult, lendsIndex⟩

def wholeCall (k : Kind) (name : Bytes) (lendsIndex : Bool) : Call :=
  callOn k name (.sized name.length) true lendsIndex

/-- The code in the result variable says that the name is valid, or too long and nothing else. -/
def SaysAccepted (k : Kind) (vars : Variables) : Prop :=
  vars.result = (Outcome.valid (s := k.shape)).code ∨
    vars.result = (Outcome.tooLong (s := k.shape)).code

/-- What a call over a whole name leaves in the variables if there is a zero byte at `p`. -/
structure TellsOfZero (k : Kind) (name : Bytes) (p : Nat) (lendsIndex : Bool)
    (vars after : Variables) : Prop where
  blames : ∃ (o : Outcome k.shape) (i : Nat), ZeroFault name p o i ∧ after.result = o.code ∧
    after.index = if lendsIndex then i else vars.index
  result_ne : ∀ o : Outcome k.shape, o.IsOfAllowedBytes → after.result ≠ o.code

section Calls

variable (k : Kind) (lendsResult lendsIndex : Bool) (vars : Variables)

theorem run_callOn_congr {buffer other : Bytes} {extent extent' : Extent}
    (h : extent.name buffer = extent'.name other) :
    (callOn k buffer extent lendsResult lendsIndex).run vars =
      (callOn k other extent' lendsResult lendsIndex).run vars := by
  cases lendsResult with
  | false => rfl
  | true =>
    have hchecked := (callOn k buffer extent true lendsIndex).run_of_checked? rfl vars
    have hchecked' := (callOn k other extent' true lendsIndex).run_of_checked? rfl vars
    rw [hchecked, hchecked']
    simp only [callOn, h]
    rfl

theorem run_terminated_eq_run_sized {buffer : Bytes} {n : Nat} (h : FirstZeroAt buffer n) :
    (callOn k buffer .terminated lendsResult lendsIndex).run vars =
      (callOn k buffer (.sized n) lendsResult lendsIndex).run vars :=
  run_callOn_congr k lendsResult lendsIndex vars (Terminated.read_eq_take h)

theorem run_wholeCall (name : Bytes) : ((wholeCall k name lendsIndex).run vars).value.2 =
    ⟨(k.validate name).outcome.code,
      if lendsIndex then (k.validate name).index.getD vars.index else vars.index⟩ := by
  have hname : (wholeCall k name lendsIndex).checked? = some name := by
    simp [wholeCall, callOn, Call.checked?, Extent.name]
  rw [Call.run_of_checked? _ hname]
  rfl

theorem tellsOfZero_run {name : Bytes} {p : Nat} (hzero : name[p]? = some 0) :
    TellsOfZero k name p lendsIndex vars ((wholeCall k name lendsIndex).run vars).value.2 := by
  obtain ⟨o, i, hv, hfault⟩ := k.validate_of_zero hzero
  rw [run_wholeCall, hv]
  refine ⟨⟨o, i, hfault, rfl, rfl⟩, fun o' ho' hcode => ?_⟩
  have hofCode : some o = some o' := by
    rw [← Outcome.ofCode?_code o, ← Outcome.ofCode?_code o']
    exact congrArg (Outcome.ofCode? k.shape) hcode
  obtain rfl := Option.some.inj hofCode
  exact hfault.not_isOfAllowedBytes ho'

theorem zero_notMem_of_saysAccepted {name : Bytes}
    (h : SaysAccepted k ((wholeCall k name lendsIndex).run vars).value.2) : 0 ∉ name := by
  intro hmem
  obtain ⟨p, hp⟩ := List.mem_iff_getElem?.mp hmem
  have htells := tellsOfZero_run k lendsIndex vars hp
  rcases h with h | h
  · exact htells.result_ne .valid trivial h
  · exact htells.result_ne .tooLong trivial h

/-- Plain and sized calls on a buffer agree about the bytes in front of its first zero byte, and
neither takes a name that holds one. -/
theorem plain_and_sized_calls_agree :
    (∀ buffer n, FirstZeroAt buffer n →
      (callOn k buffer .terminated lendsResult lendsIndex).run vars =
        (callOn k buffer (.sized n) lendsResult lendsIndex).run vars) ∧
    (∀ buffer other n, FirstZeroAt buffer n → buffer.take (n + 1) = other.take (n + 1) →
      (callOn k buffer .terminated lendsResult lendsIndex).run vars =
        (callOn k other .terminated lendsResult lendsIndex).run vars) ∧
    (∀ buffer other n, buffer.take n = other.take n →
      (callOn k buffer (.sized n) lendsResult lendsIndex).run vars =
        (callOn k other (.sized n) lendsResult lendsIndex).run vars) ∧
    (∀ name p, FirstZeroAt name p →
      TellsOfZero k name p lendsIndex vars ((wholeCall k name lendsIndex).run vars).value.2) ∧
    (∀ name rest, SaysAccepted k ((wholeCall k name lendsIndex).run vars).value.2 →
      (callOn k (name ++ 0 :: rest) .terminated true lendsIndex).run vars =
        (wholeCall k name lendsIndex).run vars) := by
  refine ⟨fun buffer n h => run_terminated_eq_run_sized k lendsResult lendsIndex vars h, ?_,
    fun buffer other n h => run_callOn_congr k lendsResult lendsIndex vars h,
    fun name p h => tellsOfZero_run k lendsIndex vars h.1, ?_⟩
  · intro buffer other n h hsame
    apply run_callOn_congr
    change Terminated.read buffer = Terminated.read other
    rw [Terminated.read_eq_take h, Terminated.read_eq_take (h.congr hsame),
      take_eq_of_take_succ_eq hsame]
  · intro name rest h
    have hzero := firstZeroAt_append (zero_notMem_of_saysAccepted k lendsIndex vars h) rest
    have hread : Terminated.read (name ++ 0 :: rest) = name.take name.length := by
      rw [Terminated.read_eq_take hzero]
      simp
    exact run_callOn_congr k true lendsIndex vars hread

end Calls

/-- The buffer `/foo`, a zero byte, `bar`: a plain call takes `/foo` for the name, and a call over
all eight bytes blames the zero byte. -/
theorem calls_on_foo_zero_bar :
    let foo : Bytes := [0x2f, 0x66, 0x6f, 0x6f]
    let bar : Bytes := [0x62, 0x61, 0x72]
    let vars : Variables := ⟨-1, 42⟩
    (callOn .topicName (foo ++ 0 :: bar) .terminated true true).run vars =
        (callOn .topicName (foo ++ 0 :: bar) (.sized 4) true true).run vars ∧
      (callOn .topicName (foo ++ 0 :: bar) .terminated true true).run vars =
        (callOn .topicName (foo ++ [0]) .terminated true true).run vars ∧
      (callOn .topicName (foo ++ 0 :: bar) (.sized 4) true true).run vars =
        (callOn .topicName foo (.sized 4) true true).run vars ∧
      TellsOfZero .topicName (foo ++ 0 :: bar) 4 true vars
        ((wholeCall .topicName (foo ++ 0 :: bar) true).run vars).value.2 ∧
      (callOn .topicName (foo ++ 0 :: bar) .terminated true true).run vars =
        (wholeCall .topicName foo true).run vars := by
  intro foo bar vars
  obtain ⟨hplain, hbehind, hsized, htells, haccepted⟩ :=
    plain_and_sized_calls_agree .topicName true true vars
  have hzero : FirstZeroAt (foo ++ 0 :: bar) 4 := ⟨rfl, by decide⟩
  exact ⟨hplain _ 4 hzero, hbehind _ _ 4 hzero rfl, hsized _ _ 4 rfl, htells _ 4 hzero,
    haccepted foo bar (Or.inl (by decide))⟩

end Entry
end RosNames
