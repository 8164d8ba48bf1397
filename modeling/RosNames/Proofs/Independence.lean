import RosNames.Proofs.Decision

/-!
# Names and flags do not touch one another

A run returns just if it returns for each of its names alone, and then it writes what those runs
write, one after the other. So lists of names may be joined and reordered. Of the flags, one decides
about the form of the output alone, and the other about nothing but whether the names that are too
long are counted among the rejected.
-/

namespace RosNames

theorem Outcome.isValid_eq_false_of_isTooLong {s : Shape} {o : Outcome s} (h : o.isTooLong) :
    o.isValid = false := by
  rw [(Outcome.isTooLong_iff o).mp h]
  rfl

namespace Cli
namespace Settings

variable (s : Settings)

def withNames (names : List String) : Settings := { s with names := names }

def withJson (json : Bool) : Settings := { s with json := json }

def withAllowTooLong (allowTooLong : Bool) : Settings := { s with allowTooLong := allowTooLong }

def Returns : Prop := ∃ t, s.run = .ok t

/-- What the run has written when it ends, however it ends. -/
def written : String :=
  match s.run with
  | .ok t => t.output
  | .error i => i.output

def writtenOf (name : String) : String := (s.withNames [name]).written

theorem returns_iff_blocks : s.Returns ↔ ∃ outputs, s.blocks s.names = .ok outputs := by
  constructor
  · rintro ⟨t, ht⟩
    obtain ⟨outputs, houtputs, -⟩ := (s.run_eq_ok_iff t).mp ht
    exact ⟨outputs, houtputs⟩
  · rintro ⟨outputs, houtputs⟩
    exact ⟨_, (s.run_eq_ok_iff _).mpr ⟨outputs, houtputs, rfl⟩⟩

variable {s}

theorem written_of_run {t : Summary} (h : s.run = .ok t) : s.written = t.output := by
  rw [written, h]

theorem written_of_blocks {outputs : List String} (h : s.blocks s.names = .ok outputs) :
    s.written = String.join outputs :=
  written_of_run ((s.run_eq_ok_iff _).mpr ⟨outputs, h, rfl⟩)

variable (s) (xs ys names : List String)

theorem blocks_append_eq_ok_iff (outputs : List String) : s.blocks (xs ++ ys) = .ok outputs ↔
    ∃ a b, s.blocks xs = .ok a ∧ s.blocks ys = .ok b ∧ outputs = a ++ b := by
  simp only [blocks, List.mapM_append, bind_eq_ok_iff, pure, Except.pure, ok_eq_ok_iff,
    exists_and_left]

theorem returns_append_iff : (s.withNames (xs ++ ys)).Returns ↔
    (s.withNames xs).Returns ∧ (s.withNames ys).Returns := by
  have happend := s.blocks_append_eq_ok_iff xs ys
  simp only [returns_iff_blocks]
  constructor
  · rintro ⟨outputs, houtputs⟩
    obtain ⟨a, b, ha, hb, -⟩ := (happend outputs).mp houtputs
    exact ⟨⟨a, ha⟩, ⟨b, hb⟩⟩
  · rintro ⟨⟨a, ha⟩, ⟨b, hb⟩⟩
    exact ⟨a ++ b, (happend _).mpr ⟨a, b, ha, hb, rfl⟩⟩

theorem written_append (h : (s.withNames (xs ++ ys)).Returns) : (s.withNames (xs ++ ys)).written =
    (s.withNames xs).written ++ (s.withNames ys).written := by
  obtain ⟨outputs, houtputs⟩ := (returns_iff_blocks _).mp h
  obtain ⟨a, b, ha, hb, rfl⟩ := (s.blocks_append_eq_ok_iff xs ys outputs).mp houtputs
  rw [written_of_blocks houtputs, written_of_blocks ha, written_of_blocks hb, String.join_append]

theorem returns_withNames_nil : (s.withNames []).Returns := (returns_iff_blocks _).mpr ⟨[], rfl⟩

theorem returns_iff_forall : (s.withNames names).Returns ↔
    ∀ name ∈ names, (s.withNames [name]).Returns := by
  induction names with
  | nil => simp [returns_withNames_nil]
  | cons name names ih =>
    rw [List.forall_mem_cons, ← ih, ← returns_append_iff, List.singleton_append]

/-- Each name adds the block that it has when it is the only one. -/
theorem written_eq_join (h : (s.withNames names).Returns) :
    (s.withNames names).written = String.join (names.map s.writtenOf) := by
  induction names with
  | nil => rfl
  | cons name names ih =>
    have hrest := ((s.returns_append_iff [name] names).mp h).2
    calc (s.withNames (name :: names)).written
        = s.writtenOf name ++ (s.withNames names).written := s.written_append [name] names h
      _ = s.writtenOf name ++ String.join (names.map s.writtenOf) := by rw [ih hrest]
      _ = String.join ((name :: names).map s.writtenOf) := by rw [List.map_cons, String.join_cons]

theorem rejected_of_run {t : Summary} (h : (s.withNames names).run = .ok t) :
    t.rejected = names.countP (!s.accepts ·) := (accounts_of_run h).rejected

theorem run_append {t u : Summary} (ht : (s.withNames xs).run = .ok t)
    (hu : (s.withNames ys).run = .ok u) : ∃ v, (s.withNames (xs ++ ys)).run = .ok v ∧
      v.output = t.output ++ u.output ∧ v.rejected = t.rejected + u.rejected := by
  obtain ⟨v, hv⟩ := (s.returns_append_iff xs ys).mpr ⟨⟨t, ht⟩, ⟨u, hu⟩⟩
  refine ⟨v, hv, ?_, ?_⟩
  · rw [← written_of_run hv, s.written_append xs ys ⟨v, hv⟩, written_of_run ht, written_of_run hu]
  · rw [s.rejected_of_run _ hv, s.rejected_of_run xs ht, s.rejected_of_run ys hu,
      List.countP_append]

theorem output_of_run {t : Summary} (h : (s.withNames names).run = .ok t) :
    t.output = String.join (names.map s.writtenOf) := by
  rw [← written_of_run h, s.written_eq_join names ⟨t, h⟩]

variable {xs ys}

theorem run_perm (h : xs.Perm ys) {t : Summary} (ht : (s.withNames xs).run = .ok t) :
    ∃ u, (s.withNames ys).run = .ok u ∧ u.output = String.join (ys.map s.writtenOf) ∧
      u.rejected = t.rejected := by
  have hreturns : (s.withNames ys).Returns := by
    rw [returns_iff_forall]
    intro name hname
    exact (s.returns_iff_forall xs).mp ⟨t, ht⟩ name (h.mem_iff.mpr hname)
  obtain ⟨u, hu⟩ := hreturns
  refine ⟨u, hu, s.output_of_run ys hu, ?_⟩
  rw [s.rejected_of_run ys hu, s.rejected_of_run xs ht, h.countP_eq]

variable {s}

theorem run_withAllowTooLong {t : Summary} (h : s.run = .ok t) (allowTooLong : Bool) :
    ∃ u, (s.withAllowTooLong allowTooLong).run = .ok u ∧ u.output = t.output := by
  obtain ⟨outputs, houtputs, rfl⟩ := (s.run_eq_ok_iff t).mp h
  exact ⟨_, ((s.withAllowTooLong allowTooLong).run_eq_ok_iff _).mpr ⟨outputs, houtputs, rfl⟩, rfl⟩

theorem rejected_withJson {t u : Summary} {json : Bool} (ht : s.run = .ok t)
    (hu : (s.withJson json).run = .ok u) : u.rejected = t.rejected :=
  (accounts_of_run hu).rejected.trans (accounts_of_run ht).rejected.symm

variable (s)

theorem accepts_withAllowTooLong (name : String) (allowTooLong : Bool) :
    (s.withAllowTooLong allowTooLong).accepts name =
      ((s.verdict name).isValid || ((s.verdict name).isTooLong && allowTooLong)) := rfl

/-- A rejected name is rejected even if too long names are let pass, or it is one of them. -/
theorem rejected_or_too_long (name : String) :
    (if !(s.withAllowTooLong false).accepts name then 1 else 0) =
      (if !(s.withAllowTooLong true).accepts name then 1 else 0) +
        if (s.verdict name).isTooLong then 1 else 0 := by
  rw [accepts_withAllowTooLong, accepts_withAllowTooLong]
  cases htooLong : (s.verdict name).isTooLong with
  | false => rfl
  | true =>
    have hinvalid : (s.verdict name).isValid = false :=
      Outcome.isValid_eq_false_of_isTooLong htooLong
    rw [hinvalid]
    rfl

theorem countP_rejected_or_too_long :
    names.countP (!(s.withAllowTooLong false).accepts ·) =
      names.countP (!(s.withAllowTooLong true).accepts ·) +
        names.countP fun name => (s.verdict name).isTooLong := by
  induction names with
  | nil => rfl
  | cons name names ih =>
    have hname := s.rejected_or_too_long name
    rw [List.countP_cons, List.countP_cons, List.countP_cons]
    omega

variable {s}

theorem rejected_withAllowTooLong {t u : Summary} (ht : (s.withAllowTooLong false).run = .ok t)
    (hu : (s.withAllowTooLong true).run = .ok u) :
    t.rejected = u.rejected + s.names.countP fun name => (s.verdict name).isTooLong := by
  rw [(accounts_of_run ht).rejected, (accounts_of_run hu).rejected]
  exact s.countP_rejected_or_too_long s.names

end Settings

theorem status_command_of_run {args : List Bytes} {s : Settings} {t : Summary}
    (hargs : Settings.ofArguments args = .ok s) (h : s.run = .ok t) (logSetting : Option String) :
    (command logSetting args).status = if 0 < t.rejected then 1 else 0 := by
  rw [command, hargs]
  simp only [h]
  rfl

theorem status_command_congr {args args' : List Bytes} {s s' : Settings} {t t' : Summary}
    (hargs : Settings.ofArguments args = .ok s) (hargs' : Settings.ofArguments args' = .ok s')
    (h : s.run = .ok t) (h' : s'.run = .ok t') (hrejected : t'.rejected = t.rejected)
    (logSetting : Option String) :
    (command logSetting args').status = (command logSetting args).status := by
  rw [status_command_of_run hargs h, status_command_of_run hargs' h', hrejected]

/-- Lists of names may be joined and reordered, and the two flags each do one thing. -/
theorem names_and_flags_are_independent (s : Settings) :
    (∀ xs ys t u, (s.withNames xs).run = .ok t → (s.withNames ys).run = .ok u →
      ∃ v, (s.withNames (xs ++ ys)).run = .ok v ∧ v.output = t.output ++ u.output ∧
        v.rejected = t.rejected + u.rejected) ∧
    (∀ xs ys t, xs.Perm ys → (s.withNames xs).run = .ok t →
      t.output = String.join (xs.map s.writtenOf) ∧
      ∃ u, (s.withNames ys).run = .ok u ∧ u.output = String.join (ys.map s.writtenOf) ∧
        u.rejected = t.rejected ∧ ∀ logSetting args args',
          Settings.ofArguments args = .ok (s.withNames xs) →
          Settings.ofArguments args' = .ok (s.withNames ys) →
          (command logSetting args').status = (command logSetting args).status) ∧
    (∀ t allowTooLong, s.run = .ok t →
      ∃ u, (s.withAllowTooLong allowTooLong).run = .ok u ∧ u.output = t.output) ∧
    (∀ t, s.run = .ok t → ∃ u, (s.withJson true).run = .ok u ∧ u.rejected = t.rejected) ∧
    (∀ t u, (s.withAllowTooLong false).run = .ok t → (s.withAllowTooLong true).run = .ok u →
      t.rejected = u.rejected + s.names.countP fun name => (s.verdict name).isTooLong) := by
  refine ⟨fun xs ys t u => s.run_append xs ys, ?_, ?_, ?_,
    fun t u => Settings.rejected_withAllowTooLong⟩
  · intro xs ys t hperm ht
    obtain ⟨u, hu, houtput, hrejected⟩ := s.run_perm hperm ht
    refine ⟨s.output_of_run xs ht, u, hu, houtput, hrejected, ?_⟩
    intro logSetting args args' hargs hargs'
    exact status_command_congr hargs hargs' ht hu hrejected logSetting
  · intro t allowTooLong h
    exact Settings.run_withAllowTooLong h allowTooLong
  · intro t h
    obtain ⟨u, hu⟩ := Settings.exists_run_of_json (s := s.withJson true) rfl
    exact ⟨u, hu, Settings.rejected_withJson h hu⟩

/-- Neither the order of a good and a bad name nor the form of the output matters to their count,
and a node name of 256 letters counts only as long as it is not let pass. -/
theorem runs_over_a_path_and_a_relative_name :
    let s : Settings := ⟨.topicName, false, false, ["/a", "b"]⟩
    let long := String.ofList (List.replicate 256 'a')
    let nodes : Settings := ⟨.nodeName, true, false, ["a", long]⟩
    (∃ t u, (s.withNames ["b", "/a"]).run = .ok t ∧ (s.withJson true).run = .ok u ∧
      t.rejected = 1 ∧ u.rejected = 1) ∧
    (∃ t, (s.withNames (["/a"] ++ ["b"])).run = .ok t ∧ t.rejected = 1) ∧
    (command none (["b", "/a"].map Utf8.encode)).status =
      (command none (["/a", "b"].map Utf8.encode)).status ∧
    ∃ t u, nodes.run = .ok t ∧ (nodes.withAllowTooLong true).run = .ok u ∧
      u.output = t.output ∧ t.rejected = u.rejected + 1 := by
  intro s long nodes
  obtain ⟨happend, hperm, -, hjson, -⟩ := names_and_flags_are_independent s
  obtain ⟨-, -, hallow, -, hcount⟩ := names_and_flags_are_independent nodes
  have hpath : ∃ t, (s.withNames ["/a"]).run = .ok t ∧ t.rejected = 0 := ⟨_, rfl, by decide⟩
  have hrelative : ∃ t, (s.withNames ["b"]).run = .ok t ∧ t.rejected = 1 := ⟨_, rfl, by decide⟩
  have hboth : ∃ t, s.run = .ok t ∧ t.rejected = 1 := ⟨_, rfl, by decide⟩
  obtain ⟨path, hpathRun, hpathCount⟩ := hpath
  obtain ⟨relative, hrelativeRun, hrelativeCount⟩ := hrelative
  obtain ⟨both, hbothRun, hbothCount⟩ := hboth
  obtain ⟨joined, hjoinedRun, -, hjoinedCount⟩ := happend _ _ path relative hpathRun hrelativeRun
  obtain ⟨-, swapped, hswappedRun, -, hswappedCount, hstatus⟩ :=
    hperm ["/a", "b"] ["b", "/a"] both (List.Perm.swap "b" "/a" []) hbothRun
  obtain ⟨object, hobjectRun, hobjectCount⟩ := hjson both hbothRun
  refine ⟨⟨swapped, object, hswappedRun, hobjectRun, by omega, by omega⟩,
    ⟨joined, hjoinedRun, by omega⟩, hstatus none _ _ rfl rfl, ?_⟩
  obtain ⟨strict, hstrictRun⟩ := Settings.exists_run_of_json (s := nodes) rfl
  obtain ⟨lenient, hlenientRun, houtput⟩ := hallow strict true hstrictRun
  refine ⟨strict, lenient, hstrictRun, hlenientRun, houtput, ?_⟩
  have hshort : (nodes.verdict "a").isTooLong = false := by decide
  have hencode : Utf8.encode long = List.replicate 256 0x61 := by
    rw [Utf8.encode, String.toList_ofList]
    decide +kernel
  have htooLong : (nodes.verdict long).isTooLong = true := by
    rw [Settings.verdict, hencode]
    decide +kernel
  rw [hcount strict lenient hstrictRun hlenientRun, List.countP_cons, List.countP_cons, hshort,
    htooLong]
  rfl

end Cli
end RosNames
