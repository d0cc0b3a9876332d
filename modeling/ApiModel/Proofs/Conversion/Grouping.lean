import ApiModel.Proofs.Conversion.Dated
import ApiModel.Proofs.Listing

namespace ApiModel

theorem groupByName_eq (entries : List (String × SpecOperation)) :
    groupByName entries = (OrderedSet.ofList (entries.map Prod.fst)).map
      fun name => { name, operations := listedUnder entries name } := by
  have hfold : entries.foldl (fun (m : OrderedMap String (List SpecOperation)) e =>
      m.alter e.1 [] (· ++ [e.2])) [] =
        (OrderedSet.ofList (entries.map Prod.fst)).map fun n => (n, listedUnder entries n) :=
    OrderedMap.pushAll_nil entries
  rw [groupByName, hfold, List.map_map]
  rfl

def Operation.groups (op : Operation) (o : Options) : List String :=
  (op.acceptedTags o).map Naming.typeName

def Document.selected (d : Document) (o : Options) : List (PathItem × Operation) :=
  d.paths.flatMap fun item =>
    (item.operations.filter fun op => !(op.groups o).isEmpty).map (item, ·)

theorem Operation.isSelected_eq (op : Operation) (o : Options) :
    op.isSelected o = !(op.groups o).isEmpty := by
  rw [isSelected, groups, acceptedTags, List.isEmpty_map, List.any_eq_not_all_not]
  congr 1
  rw [Bool.eq_iff_iff, List.isEmpty_iff, List.filter_eq_nil_iff, List.all_eq_true]
  simp

/-- The groups of a listing of operations: they are named apart, none is empty, and each lists
every operation as often as one of its tags names the group. -/
structure GroupedBy (o : Options) (listing : List (Operation × SpecOperation))
    (apis : List SpecApi) : Prop where
  names : apis.map (·.name) = OrderedSet.ofList (listing.flatMap fun e => e.1.groups o)
  distinct : (apis.map (·.name)).Nodup
  nonempty : ∀ api ∈ apis, api.operations ≠ []
  listed : ∀ api ∈ apis, api.operations =
    listing.flatMap fun e => List.replicate ((e.1.groups o).count api.name) e.2
  once : ∀ api ∈ apis, (∀ e ∈ listing, (e.1.groups o).Nodup) → api.operations =
    (listing.filter fun e => decide (api.name ∈ e.1.groups o)).map Prod.snd

theorem groupedBy_groupByName (o : Options) (listing : List (Operation × SpecOperation)) :
    GroupedBy o listing
      (groupByName (listing.flatMap fun e => (e.1.groups o).map fun g => (g, e.2))) := by
  have hkeys : (listing.flatMap fun e => (e.1.groups o).map fun g => (g, e.2)).map Prod.fst =
      listing.flatMap fun e => e.1.groups o := by
    rw [List.map_flatMap]
    exact List.flatMap_congr fun e _ => by rw [List.map_map]; exact List.map_id _
  have hnames : (groupByName (listing.flatMap fun e => (e.1.groups o).map fun g => (g, e.2))).map
      (·.name) = OrderedSet.ofList (listing.flatMap fun e => e.1.groups o) := by
    rw [groupByName_eq, List.map_map, hkeys]
    exact List.map_id _
  have hlisted : ∀ api ∈ groupByName (listing.flatMap fun e =>
      (e.1.groups o).map fun g => (g, e.2)), api.name ∈ listing.flatMap (fun e => e.1.groups o) ∧
        api.operations = listedUnder (listing.flatMap fun e =>
          (e.1.groups o).map fun g => (g, e.2)) api.name := by
    intro api hapi
    rw [groupByName_eq, hkeys] at hapi
    obtain ⟨name, hname, rfl⟩ := List.mem_map.1 hapi
    exact ⟨OrderedSet.mem_ofList.1 hname, rfl⟩
  refine ⟨hnames, hnames ▸ OrderedSet.nodup_ofList _, fun api hapi => ?_, fun api hapi => ?_,
    fun api hapi honce => ?_⟩
  · obtain ⟨hname, hops⟩ := hlisted api hapi
    rw [hops, Ne, listedUnder_eq_nil, hkeys]
    exact not_not_intro hname
  · rw [(hlisted api hapi).2, listedUnder_flatMap]
  · rw [(hlisted api hapi).2, listedUnder_flatMap, flatMap_replicate_count honce]

namespace Context

variable {c : Context}

theorem selectedOperations_eq (c : Context) :
    c.selectedOperations = c.document.selected c.options := by
  unfold selectedOperations Document.selected PathItem.selected
  simp only [Operation.isSelected_eq]

theorem taggedOperation_meets (entry : PathItem × Operation) :
    Meets (c.taggedOperation entry) (fun entries => ∃ s, c.operation entry.1 entry.2 = .ok s ∧
      entries = (entry.2.groups c.options).map fun g => (g, s)) fun _ => True := by
  obtain ⟨item, op⟩ := entry
  change Meets (c.operation item op >>= fun s => _) _ _
  cases hs : c.operation item op with
  | error e => trivial
  | ok s => exact ⟨s, rfl, by rw [Operation.groups, List.map_map]; rfl⟩

theorem exists_listing {entries : List (PathItem × Operation)}
    {groups : List (List (String × SpecOperation))}
    (h : List.Forall₂ (fun entry found => ∃ s, c.operation entry.1 entry.2 = .ok s ∧
      found = (entry.2.groups c.options).map fun g => (g, s)) entries groups) :
    ∃ listing : List (Operation × SpecOperation),
      List.Forall₂ (fun entry e => e.1 = entry.2 ∧ c.operation entry.1 entry.2 = .ok e.2)
        entries listing ∧
      groups.flatten = listing.flatMap fun e => (e.1.groups c.options).map fun g => (g, e.2) := by
  induction h with
  | nil => exact ⟨[], .nil, rfl⟩
  | @cons entry found entries groups hentry _ ih =>
    obtain ⟨s, hs, rfl⟩ := hentry
    obtain ⟨listing, hall, hflat⟩ := ih
    refine ⟨(entry.2, s) :: listing, .cons ⟨rfl, hs⟩ hall, ?_⟩
    rw [List.flatten_cons, hflat, List.flatMap_cons]

theorem apis_grouped (c : Context) :
    Meets c.apis (fun apis => ∃ listing : List (Operation × SpecOperation),
      List.Forall₂ (fun entry e => e.1 = entry.2 ∧ c.operation entry.1 entry.2 = .ok e.2)
        (c.document.selected c.options) listing ∧
      GroupedBy c.options listing apis) fun _ => True := by
  unfold apis
  rw [selectedOperations_eq]
  refine (Meets.mapM fun entry _ => taggedOperation_meets entry).bind fun groups _ hgroups => ?_
  obtain ⟨listing, hall, hflat⟩ := exists_listing hgroups
  exact ⟨listing, hall, hflat ▸ groupedBy_groupByName c.options listing⟩

end Context

namespace Document

variable {d : Document} {o : Options}

theorem convert_groups {moment : Timestamp} {m : SpecModel} {notes : List Note}
    (hc : d.convert o moment = .ok (m, notes)) :
    ∃ placed, d.placed o = .ok placed ∧ ∃ listing : List (Operation × SpecOperation),
      List.Forall₂ (fun entry e => e.1 = entry.2 ∧ Context.operation
        { document := d, options := o, placed } entry.1 entry.2 = .ok e.2) (d.selected o) listing ∧
      GroupedBy o listing m.apis := by
  obtain ⟨placed, hplaced, hapis⟩ := apis_of_convert hc
  exact ⟨placed, hplaced, (Context.apis_grouped _).of_ok hapis⟩

def retagged : String :=
  "\x7bopenapi: '3.1', info: \x7b\x7d, paths: \x7b/p: \x7b" ++
    "get: \x7btags: [a b, a-b]\x7d, put: \x7btags: [c, a b]\x7d\x7d\x7d\x7d"

theorem retagged_converts : ∃ d m notes, load retagged {} = .ok (d, []) ∧
    d.convert {} ⟨0, false⟩ = .ok (m, notes) ∧
      m.apis.map (fun api => (api.name, api.operations.map (·.name))) =
        [("AB", ["getP", "getP", "putP"]), ("C", ["putP"])] ∧
      (d.selected {}).map (fun e => e.2.groups {}) = [["AB", "AB"], ["C", "AB"]] := by
  have hcheck : ((load retagged {}).toOption.any fun x => x.2.isEmpty &&
      (x.1.convert {} ⟨0, false⟩).toOption.any fun y => decide (
        y.1.apis.map (fun api => (api.name, api.operations.map (·.name))) =
          [("AB", ["getP", "getP", "putP"]), ("C", ["putP"])] ∧
        (x.1.selected {}).map (fun e => e.2.groups {}) = [["AB", "AB"], ["C", "AB"]])) = true := by
    decide +kernel
  obtain ⟨d, hload, hconverted⟩ := quiet_of_any hcheck
  obtain ⟨⟨m, notes⟩, hc, hmodel⟩ := ok_of_any hconverted
  exact ⟨d, m, notes, hload, hc, of_decide_eq_true hmodel⟩

theorem convert_groups_retagged : ∃ d m notes, load retagged {} = .ok (d, []) ∧
    d.convert {} ⟨0, false⟩ = .ok (m, notes) ∧ ∃ placed, d.placed {} = .ok placed ∧
      ∃ listing : List (Operation × SpecOperation),
        List.Forall₂ (fun entry e => e.1 = entry.2 ∧ Context.operation
          { document := d, options := {}, placed } entry.1 entry.2 = .ok e.2) (d.selected {})
            listing ∧ GroupedBy {} listing m.apis := by
  obtain ⟨d, m, notes, hload, hc, _⟩ := retagged_converts
  exact ⟨d, m, notes, hload, hc, convert_groups hc⟩

theorem retagged_listed_twice : ∃ d m notes, load retagged {} = .ok (d, []) ∧
    d.convert {} ⟨0, false⟩ = .ok (m, notes) ∧ (d.selected {}).length = 2 ∧
      ∃ api ∈ m.apis, (api.operations.map (·.name)).count "getP" = 2 := by
  obtain ⟨d, m, notes, hload, hc, hapis, hgroups⟩ := retagged_converts
  refine ⟨d, m, notes, hload, hc, by simpa using congrArg List.length hgroups, ?_⟩
  have hmem : ("AB", ["getP", "getP", "putP"]) ∈
      m.apis.map fun api => (api.name, api.operations.map (·.name)) := by
    rw [hapis]
    exact List.mem_cons_self
  obtain ⟨api, hapi, heq⟩ := List.mem_map.1 hmem
  refine ⟨api, hapi, ?_⟩
  rw [(Prod.mk.inj heq).2]
  rfl

end Document

end ApiModel
