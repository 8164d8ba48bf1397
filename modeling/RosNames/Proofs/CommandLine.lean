import RosNames.Proofs.ItemSteps

/-!
# The command lines that are accepted

In front of the end of the options a command line is a sequence of items in any order: names, flags
and the option for the kind in one of its spellings. Everything after the end of the options is a
name. The settings are those of the items, provided that no flag and no kind is given twice, that
there is a name and that all names are texts.
-/

namespace RosNames.Cli

namespace Item

def name? : Item → Option Bytes
  | name bytes => some bytes
  | _ => none

def flag? : Item → Option Flag
  | flag f => some f
  | _ => none

def kind? : Item → Option Kind
  | kind k => some k
  | _ => none

end Item

inductive Spells : List Bytes → List Item → Prop
  | nil : Spells [] []
  | cons {item : Item} {spelled args : List Bytes} {items : List Item} :
      Spelling item spelled → Spells args items → Spells (spelled ++ args) (item :: items)

theorem Spells.endOfOptions_notMem {args : List Bytes} {items : List Item} (h : Spells args items) :
    endOfOptions ∉ args := by
  induction h with
  | nil => exact List.not_mem_nil
  | cons hspelling _ ih =>
    intro hmem
    rcases List.mem_append.mp hmem with hmem | hmem
    · exact hspelling.endOfOptions_notMem hmem
    · exact ih hmem

/-- The arguments spell the settings: `front` is what stands before the first end of the options, if
there is any, and `back` what stands after it. -/
def IsCommandLine (args : List Bytes) (s : Settings) : Prop :=
  ∃ front tail back items, args = front ++ tail ∧ endOfOptions ∉ front ∧
    (tail = [] ∧ back = [] ∨ tail = endOfOptions :: back) ∧ Spells front items ∧
    (items.filterMap Item.flag?).Nodup ∧ (items.filterMap Item.kind?).length ≤ 1 ∧
    s.names ≠ [] ∧ s.names.map Utf8.encode = items.filterMap Item.name? ++ back ∧
    s.kind = (items.filterMap Item.kind?).head?.getD .topicName ∧
    (s.json ↔ .json ∈ items.filterMap Item.flag?) ∧
    (s.allowTooLong ↔ .allowTooLong ∈ items.filterMap Item.flag?)

namespace Reader

variable {r r' : Reader}

/-- What a sequence of items comes to, if no flag and no kind is given twice and every name is a
text. -/
theorem collects_iff (items : List Item) : r.Collects items r' ↔
    (r.kind.toList ++ items.filterMap Item.kind?).length ≤ 1 ∧
    ((items.filterMap Item.flag?).Nodup ∧ ∀ f ∈ items.filterMap Item.flag?, f ∉ r.flags) ∧
    ∃ texts, texts.map Utf8.encode = items.filterMap Item.name? ∧ r' = { r with
      kind := (r.kind.toList ++ items.filterMap Item.kind?).head?
      flags := (items.filterMap Item.flag?).reverse ++ r.flags
      names := r.names ++ texts } := by
  -- the reader is any, for the kind and the flags it holds decide whether later ones are too many
  induction items generalizing r with
  | nil => cases hk : r.kind <;> simp [Collects, ← hk]
  | cons item items ih =>
    simp only [Collects, ih]
    cases item with
    | name bytes =>
      constructor
      · rintro ⟨r₁, ⟨text, htext, rfl⟩, hkinds, hflags, texts, htexts, rfl⟩
        refine ⟨hkinds, hflags, text :: texts, ?_, ?_⟩
        · rw [List.map_cons, htext, htexts]
          rfl
        · simp only [List.append_assoc]
          rfl
      · rintro ⟨hkinds, hflags, texts, htexts, rfl⟩
        obtain ⟨text, more, rfl, htext, hmore⟩ := List.map_eq_cons_iff.mp htexts
        refine ⟨_, ⟨text, htext, rfl⟩, hkinds, hflags, more, hmore, ?_⟩
        simp only [List.append_assoc]
        rfl
    | flag f =>
      have hcons : (Item.flag f :: items).filterMap Item.flag? = f :: items.filterMap Item.flag? :=
        rfl
      rw [hcons, List.nodup_cons, List.forall_mem_cons, List.reverse_cons, List.append_assoc]
      constructor
      · rintro ⟨r₁, ⟨hf, rfl⟩, hkinds, ⟨hnodup, hnew⟩, texts, htexts, rfl⟩
        have hfirst : f ∉ items.filterMap Item.flag? := fun hmem => hnew f hmem List.mem_cons_self
        have hlater : ∀ g ∈ items.filterMap Item.flag?, g ∉ r.flags :=
          fun g hg hmem => hnew g hg (List.mem_cons_of_mem f hmem)
        exact ⟨hkinds, ⟨⟨hfirst, hnodup⟩, hf, hlater⟩, texts, htexts, rfl⟩
      · rintro ⟨hkinds, ⟨⟨hfirst, hnodup⟩, hf, hnew⟩, texts, htexts, rfl⟩
        refine ⟨_, ⟨hf, rfl⟩, hkinds, ⟨hnodup, fun g hg hmem => ?_⟩, texts, htexts, rfl⟩
        rcases List.mem_cons.mp hmem with rfl | hmem
        · exact hfirst hg
        · exact hnew g hg hmem
    | kind k =>
      have hcons : (Item.kind k :: items).filterMap Item.kind? = k :: items.filterMap Item.kind? :=
        rfl
      rw [hcons]
      constructor
      · rintro ⟨r₁, ⟨hk, rfl⟩, hkinds, hflags, texts, htexts, rfl⟩
        rw [hk]
        exact ⟨hkinds, hflags, texts, htexts, rfl⟩
      · rintro ⟨hkinds, hflags, texts, htexts, rfl⟩
        cases hk : r.kind with
        | some k' => simp [hk] at hkinds
        | none =>
          rw [hk] at hkinds
          exact ⟨_, ⟨hk, rfl⟩, hkinds, hflags, texts, htexts, rfl⟩

/-- The arguments are items up to the end of the options and names from there on, and the reader
collects them all. -/
def Accepts (r : Reader) (args : List Bytes) (r' : Reader) : Prop :=
  ∃ front tail back items, args = front ++ tail ∧
    (tail = [] ∧ back = [] ∨ tail = endOfOptions :: back) ∧ Spells front items ∧
    r.Collects (items ++ back.map .name) r'

theorem accepts_of_finish {args : List Bytes} (h : r.pending = .nothing)
    (hfinish : r.finish args = .ok r') : r.Accepts args r' := by
  -- an item may take two arguments at once
  induction hn : args.length using Nat.strongRecOn generalizing r args with
  | _ n ih =>
    cases args with
    | nil =>
      rw [finish_nil, settle_of_nothing h, ok_eq_ok_iff] at hfinish
      exact ⟨[], [], [], [], rfl, Or.inl ⟨rfl, rfl⟩, .nil, hfinish⟩
    | cons a args =>
      by_cases ha : a = endOfOptions
      · obtain ⟨r₀, h₀, hnames⟩ := (finish_endOfOptions_iff args).mp (ha ▸ hfinish)
        obtain rfl := ok_eq_ok_iff.mp ((settle_of_nothing h).symm.trans h₀)
        exact ⟨[], a :: args, args, [], rfl, Or.inr (by rw [ha]), .nil, hnames⟩
      · obtain ⟨item, spelled, rest, hargs, hspelling⟩ := exists_spelling_of_finish h ha hfinish
        rw [hargs] at hfinish hn ⊢
        obtain ⟨r₁, hadds, hrest⟩ := (finish_spelling_iff h hspelling).mp hfinish
        have hlt : rest.length < n := by
          have hpos := List.length_pos_iff.mpr hspelling.ne_nil
          rw [← hn, List.length_append]
          omega
        obtain ⟨front, tail, back, items, rfl, htail, hspells, hcollects⟩ :=
          ih _ hlt (hadds.pending.trans h) hrest rfl
        exact ⟨spelled ++ front, tail, back, item :: items, (List.append_assoc ..).symm, htail,
          .cons hspelling hspells, r₁, hadds, hcollects⟩

theorem finish_of_accepts {args : List Bytes} (h : r.pending = .nothing)
    (haccepts : r.Accepts args r') : r.finish args = .ok r' := by
  obtain ⟨front, tail, back, items, rfl, htail, hspells, hcollects⟩ := haccepts
  induction hspells generalizing r with
  | nil =>
    rcases htail with ⟨rfl, rfl⟩ | rfl
    · obtain rfl : r' = r := hcollects
      exact settle_of_nothing h
    · exact (finish_endOfOptions_iff back).mpr ⟨r, settle_of_nothing h, hcollects⟩
  | cons hspelling _ ih =>
    obtain ⟨r₁, hadds, hrest⟩ := hcollects
    rw [List.append_assoc, finish_spelling_iff h hspelling]
    exact ⟨r₁, hadds, ih (hadds.pending.trans h) hrest⟩

theorem finish_eq_ok_iff {args : List Bytes} (h : r.pending = .nothing) :
    r.finish args = .ok r' ↔ r.Accepts args r' :=
  ⟨accepts_of_finish h, finish_of_accepts h⟩

end Reader

theorem filterMap_name?_map_name (back : List Bytes) :
    (back.map Item.name).filterMap Item.name? = back := by
  rw [List.filterMap_map]
  exact List.filterMap_some

theorem filterMap_flag?_map_name (back : List Bytes) :
    (back.map Item.name).filterMap Item.flag? = [] := by
  rw [List.filterMap_map]
  exact List.filterMap_eq_nil_iff.mpr fun _ _ => rfl

theorem filterMap_kind?_map_name (back : List Bytes) :
    (back.map Item.name).filterMap Item.kind? = [] := by
  rw [List.filterMap_map]
  exact List.filterMap_eq_nil_iff.mpr fun _ _ => rfl

def Reader.settings (r : Reader) : Settings where
  kind := r.kind.getD default
  json := r.flags.contains .json
  allowTooLong := r.flags.contains .allowTooLong
  names := r.names

theorem ofArguments_eq_ok_iff_finish (args : List Bytes) (s : Settings) :
    Settings.ofArguments args = .ok s ↔
      ∃ r, Reader.finish {} args = .ok r ∧ r.names ≠ [] ∧ s = r.settings := by
  have hbind : Settings.ofArguments args = Reader.finish {} args >>= fun r =>
      if r.names.isEmpty then .error (.refused .missingNames) else .ok r.settings := by
    rw [Reader.finish, bind_assoc]
    rfl
  rw [hbind, bind_eq_ok_iff]
  refine exists_congr fun r => and_congr_right fun _ => ?_
  cases hnames : r.names with
  | nil => simp
  | cons name names => simpa using eq_comm

theorem collects_empty_iff (items : List Item) (back : List Bytes) (r : Reader) :
    Reader.Collects {} (items ++ back.map .name) r ↔
      (items.filterMap Item.flag?).Nodup ∧ (items.filterMap Item.kind?).length ≤ 1 ∧
      ∃ texts, texts.map Utf8.encode = items.filterMap Item.name? ++ back ∧
        r = { kind := (items.filterMap Item.kind?).head?
              flags := (items.filterMap Item.flag?).reverse
              names := texts } := by
  rw [Reader.collects_iff]
  simp only [List.filterMap_append, filterMap_name?_map_name, filterMap_flag?_map_name,
    filterMap_kind?_map_name, List.append_nil, Option.toList_none, List.nil_append,
    List.not_mem_nil, not_false_eq_true, implies_true, and_true]
  exact and_left_comm

/-- The settings that come of a command line are those that it spells, and no other command line is
accepted. -/
theorem ofArguments_eq_ok_iff (args : List Bytes) (s : Settings) :
    Settings.ofArguments args = .ok s ↔ IsCommandLine args s := by
  rw [ofArguments_eq_ok_iff_finish]
  constructor
  · rintro ⟨r, hfinish, hnames, rfl⟩
    obtain ⟨front, tail, back, items, rfl, htail, hspells, hcollects⟩ :=
      (Reader.finish_eq_ok_iff rfl).mp hfinish
    obtain ⟨hflags, hkinds, texts, htexts, rfl⟩ := (collects_empty_iff items back r).mp hcollects
    exact ⟨front, tail, back, items, rfl, hspells.endOfOptions_notMem, htail, hspells, hflags,
      hkinds, hnames, htexts, rfl, by simp [Reader.settings], by simp [Reader.settings]⟩
  · rintro ⟨front, tail, back, items, rfl, -, htail, hspells, hflags, hkinds, hnames, htexts, hkind,
      hjson, hallow⟩
    have hjson' : s.json = (items.filterMap Item.flag?).reverse.contains .json := by
      rw [Bool.eq_iff_iff]
      simpa using hjson
    have hallow' : s.allowTooLong =
        (items.filterMap Item.flag?).reverse.contains .allowTooLong := by
      rw [Bool.eq_iff_iff]
      simpa using hallow
    refine ⟨_, (Reader.finish_eq_ok_iff rfl).mpr ⟨front, tail, back, items, rfl, htail, hspells,
      (collects_empty_iff items back _).mpr ⟨hflags, hkinds, s.names, htexts, rfl⟩⟩, hnames, ?_⟩
    calc s = ⟨s.kind, s.json, s.allowTooLong, s.names⟩ := rfl
      _ = _ := by
        rw [hkind, hjson', hallow']
        rfl

example : Settings.ofArguments (["-knode", "--", "--json"].map Utf8.encode) =
    .ok ⟨.nodeName, false, false, ["--json"]⟩ := by rfl

end RosNames.Cli
