import RosNames.Proofs.Decision
import RosNames.Proofs.JsonReading
import RosNames.Proofs.Lines

/-!
# Output as JSON

With objects for output a run writes one line per name, and whatever the name holds, no line is
broken. Read back, a line gives the name and every part of its report that is written. The one part
that is not, whether the name is too long, shows in the label of the outcome, so a line stands for
one name and one report, and the output for one list of names.
-/

namespace RosNames

theorem Outcome.isTooLong_eq_label {s : Shape} (o : Outcome s) :
    o.isTooLong = decide (o.label = "TooLong") := by
  cases o <;> rfl

theorem Json.Value.ofOption_injective {α : Type} {f : α → Json.Value} {o o' : Option α}
    (hf : ∀ a b, f a = f b → a = b) (hnull : ∀ a, f a ≠ .null)
    (h : ofOption f o = ofOption f o') : o = o' := by
  cases o with
  | none =>
    cases o' with
    | none => rfl
    | some b => exact absurd h.symm (hnull b)
  | some a =>
    cases o' with
    | none => exact absurd h (hnull a)
    | some b => exact congrArg some (hf a b h)

/-- The written members leave nothing open but whether the name is too long. -/
theorem Report.eq_of_members_eq {r r' : Report} (h : r.members = r'.members)
    (htooLong : r.result = r'.result → r.tooLong = r'.tooLong) : r = r' := by
  obtain ⟨kind, valid, code, result, description, index, tooLong⟩ := r
  obtain ⟨kind', valid', code', result', description', index', tooLong'⟩ := r'
  simp only [members, List.cons.injEq, Prod.mk.injEq, Json.Value.text.injEq, Json.Value.bool.injEq,
    Json.Value.number.injEq, true_and, and_true] at h
  obtain ⟨hkeyword, rfl, rfl, rfl, hdescription, hindex⟩ := h
  obtain rfl := Cli.keyword_injective hkeyword
  obtain rfl :=
    Json.Value.ofOption_injective (fun _ _ => Json.Value.text.inj) (by simp) hdescription
  obtain rfl := Json.Value.ofOption_injective (fun _ _ => Json.Value.number.inj) (by simp) hindex
  obtain rfl := htooLong rfl
  rfl

theorem Validation.report_eq_of_members_eq {k k' : Kind} {v : Validation k} {v' : Validation k'}
    (h : v.report.members = v'.report.members) : v.report = v'.report := by
  apply Report.eq_of_members_eq h
  intro hlabel
  change v.outcome.label = v'.outcome.label at hlabel
  change v.outcome.isTooLong = v'.outcome.isTooLong
  rw [Outcome.isTooLong_eq_label, Outcome.isTooLong_eq_label, hlabel]

namespace Cli

def objectText (name : String) (r : Report) : String :=
  Json.object (("name", .text name) :: r.members)

theorem jsonLine_eq (name : String) (r : Report) : jsonLine name r = objectText name r ++ "\n" :=
  rfl

/-- What is read off a line: the keys, and under each the name or a part of the report. -/
structure Tells (members : List (String × Json.Tree)) (name : String) (r : Report) : Prop where
  keys : members.map Prod.fst =
    ["name", "kind", "valid", "code", "result", "description", "invalid_index"]
  name : members.lookup "name" = some (.text name)
  kind : members.lookup "kind" = some (.text r.kind.keyword)
  valid : members.lookup "valid" = some (.bool r.valid)
  code : members.lookup "code" = some (.number (.ofNat r.code))
  result : members.lookup "result" = some (.text r.result)
  description : members.lookup "description" = some (r.description.elim .null .text)
  index : members.lookup "invalid_index" = some (r.index.elim .null fun i => .number (.ofNat i))

/-- A line without a break in it that is an object about the name. -/
def IsLineOf (k : Kind) (name line : String) : Prop :=
  '\n' ∉ line.toList ∧ ∃ members, Json.decode? line = some (.object members) ∧
    Tells members name (k.report (Utf8.encode name))

/-- The text is one line for each name, in the order of the names. -/
def IsOutputOf (k : Kind) : List String → String → Prop
  | [], output => output = ""
  | name :: names, output => ∃ line rest, output = line ++ "\n" ++ rest ∧ IsLineOf k name line ∧
      IsOutputOf k names rest

theorem tree_ofOption_text (o : Option String) :
    (Json.Value.ofOption .text o).tree = o.elim .null .text := by
  cases o <;> rfl

theorem tree_ofOption_number (o : Option Nat) :
    (Json.Value.ofOption .number o).tree = o.elim .null fun n => .number (.ofNat n) := by
  cases o <;> rfl

theorem tells_objectText (name : String) (r : Report) :
    Tells ((("name", .text name) :: r.members).map Json.memberTree) name r where
  keys := rfl
  name := rfl
  kind := rfl
  valid := rfl
  code := rfl
  result := rfl
  description := congrArg some (tree_ofOption_text r.description)
  index := congrArg some (tree_ofOption_number r.index)

theorem isLineOf_objectText (k : Kind) (name : String) :
    IsLineOf k name (objectText name (k.report (Utf8.encode name))) :=
  ⟨Json.newline_notMem_object _, _, Json.decode?_object _, tells_objectText name _⟩

theorem IsLineOf.name_unique {k k' : Kind} {name name' line : String} (h : IsLineOf k name line)
    (h' : IsLineOf k' name' line) : name = name' := by
  obtain ⟨-, members, hread, htells⟩ := h
  obtain ⟨-, members', hread', htells'⟩ := h'
  obtain rfl : members = members' :=
    Json.Tree.object.inj (Option.some.inj (hread.symm.trans hread'))
  exact Json.Tree.text.inj (Option.some.inj (htells.name.symm.trans htells'.name))

theorem jsonLine_injective {k k' : Kind} {v : Validation k} {v' : Validation k'}
    {name name' : String} (h : jsonLine name v.report = jsonLine name' v'.report) :
    name = name' ∧ v.report = v'.report := by
  rw [jsonLine_eq, jsonLine_eq, String.append_left_inj] at h
  obtain ⟨hname, hmembers⟩ := List.cons.inj (Json.object_injective h)
  exact ⟨Json.Value.text.inj (Prod.mk.inj hname).2, Validation.report_eq_of_members_eq hmembers⟩

def jsonOutput (k : Kind) (names : List String) : String :=
  String.join (names.map fun name => jsonLine name (k.report (Utf8.encode name)))

theorem run_of_json (k : Kind) (allowTooLong : Bool) (names : List String) :
    ∃ t, Settings.run ⟨k, true, allowTooLong, names⟩ = .ok t ∧ t.output = jsonOutput k names := by
  have hblocks := Settings.blocks_of_json (s := ⟨k, true, allowTooLong, names⟩) rfl names
  exact ⟨_, (Settings.run_eq_ok_iff _ _).mpr ⟨_, hblocks, rfl⟩, rfl⟩

theorem output_eq_jsonOutput {k : Kind} {allowTooLong : Bool} {names : List String} {t : Summary}
    (h : Settings.run ⟨k, true, allowTooLong, names⟩ = .ok t) : t.output = jsonOutput k names := by
  obtain ⟨u, hu, houtput⟩ := run_of_json k allowTooLong names
  rw [Except.ok.inj (h.symm.trans hu), houtput]

theorem isOutputOf_jsonOutput (k : Kind) (names : List String) :
    IsOutputOf k names (jsonOutput k names) := by
  induction names with
  | nil => rfl
  | cons name names ih =>
    refine ⟨objectText name (k.report (Utf8.encode name)), jsonOutput k names, ?_,
      isLineOf_objectText k name, ih⟩
    rw [jsonOutput, List.map_cons, String.join_cons, jsonLine_eq]
    rfl

theorem IsOutputOf.names_unique {k k' : Kind} {names names' : List String} {output : String}
    (h : IsOutputOf k names output) (h' : IsOutputOf k' names' output) : names = names' := by
  have hnonempty {line rest : String} : "" ≠ line ++ "\n" ++ rest := by
    intro heq
    simpa using congrArg String.toList heq
  induction names generalizing names' output with
  | nil =>
    obtain rfl : output = "" := h
    cases names' with
    | nil => rfl
    | cons name' names' =>
      obtain ⟨line', rest', heq, -, -⟩ := h'
      exact absurd heq hnonempty
  | cons name names ih =>
    obtain ⟨line, rest, rfl, hline, hrest⟩ := h
    cases names' with
    | nil => exact absurd h'.symm hnonempty
    | cons name' names' =>
      obtain ⟨line', rest', heq, hline', hrest'⟩ := h'
      obtain ⟨rfl, rfl⟩ := append_newline_inj hline.1 hline'.1 heq
      rw [hline.name_unique hline', ih hrest hrest']

/-- Every run writes a line for each name, from which name and report can be read; so the output
tells the names apart, and a line tells the whole report. -/
theorem json_output_is_lossless :
    (∀ k allowTooLong names, ∃ t, Settings.run ⟨k, true, allowTooLong, names⟩ = .ok t ∧
      IsOutputOf k names t.output) ∧
    (∀ k allowTooLong allowTooLong' names names' t t',
      Settings.run ⟨k, true, allowTooLong, names⟩ = .ok t →
      Settings.run ⟨k, true, allowTooLong', names'⟩ = .ok t' →
      (t.output = t'.output ↔ names = names')) ∧
    (∀ k k' (v : Validation k) (v' : Validation k') name name',
      jsonLine name v.report = jsonLine name' v'.report → name = name' ∧ v.report = v'.report) := by
  refine ⟨?_, ?_, fun _ _ _ _ _ _ h => jsonLine_injective h⟩
  · intro k allowTooLong names
    obtain ⟨t, ht, houtput⟩ := run_of_json k allowTooLong names
    exact ⟨t, ht, houtput ▸ isOutputOf_jsonOutput k names⟩
  · intro k allowTooLong allowTooLong' names names' t t' ht ht'
    rw [output_eq_jsonOutput ht, output_eq_jsonOutput ht']
    constructor
    · intro h
      exact (isOutputOf_jsonOutput k names).names_unique (h ▸ isOutputOf_jsonOutput k names')
    · rintro rfl
      rfl

/-- Two names, the first one with a line break and a quote in it, and a line about the second. -/
theorem json_output_of_a_broken_name :
    let names := ["/a\n\"", "/b"]
    let v := Kind.topicName.validate (Utf8.encode "/b")
    let v' : Validation .topicName := ⟨.valid, none⟩
    (∃ t t', Settings.run ⟨.topicName, true, false, names⟩ = .ok t ∧
      Settings.run ⟨.topicName, true, true, names⟩ = .ok t' ∧ t.output = t'.output ∧
      IsOutputOf .topicName names t.output) ∧
    jsonLine "/b" v.report = jsonLine "/b" v'.report ∧ v.report = v'.report := by
  intro names v v'
  obtain ⟨hruns, hsame, hline⟩ := json_output_is_lossless
  obtain ⟨t, ht, houtput⟩ := hruns .topicName false names
  obtain ⟨t', ht', -⟩ := hruns .topicName true names
  have hv : v = v' := by decide
  have hlines : jsonLine "/b" v.report = jsonLine "/b" v'.report := by rw [hv]
  exact ⟨⟨t, t', ht, ht', (hsame _ _ _ _ _ _ _ ht ht').mpr rfl, houtput⟩, hlines,
    (hline _ _ v v' _ _ hlines).2⟩

end Cli
end RosNames
