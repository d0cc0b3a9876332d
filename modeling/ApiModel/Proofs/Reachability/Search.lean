import ApiModel.Proofs.Document.Links
import ApiModel.Proofs.Document.Loaded
import ApiModel.Proofs.Reachability.Visits

namespace ApiModel

namespace Document

/-- Between two visits: what has been visited is reached and opens, and what it leads to has been
visited or is still to be. -/
structure Walk (d : Document) (o : Options) (aliases : List Nat) (visits : List Visit)
    (r : Reachability) : Prop where
  reached : ∀ id ∈ r.visited, d.Reached o id
  opens : ∀ id ∈ r.visited, d.Opens id
  pending : ∀ v ∈ visits, d.Reached o v.id ∧ d.Marked v
  closed : ∀ id ∈ r.visited, ∀ next, d.Leads id next → next ∈ r.visited ∨ next ∈ targets visits
  nodup : (r.entries.map (·.id)).Nodup
  entries : ∀ id kind, (∃ path, ⟨id, path, kind⟩ ∈ r.entries) ↔
    (id ∈ r.visited ∧ (d.node id).reference = none ∧ ¬d.arena.IsMember id ∧
      classify (d.node id) = .ok kind) ∨ (id ∈ aliases ∧ kind = .ref)
  aliases : ∀ id ∈ aliases, (d.node id).reference.isSome = true

variable {d : Document} {o : Options} {aliases : List Nat} {v : Visit} {rest : List Visit}
  {r : Reachability}

theorem Walk.skip (h : d.Walk o aliases (v :: rest) r) (hv : v.id ∈ r.visited) :
    d.Walk o aliases rest r where
  reached := h.reached
  opens := h.opens
  pending w hw := h.pending w (List.mem_cons_of_mem _ hw)
  closed id hid next hl := by
    rcases h.closed id hid next hl with hn | hn
    · exact .inl hn
    · rcases List.mem_cons.1 hn with rfl | hn
      · exact .inl hv
      · exact .inr hn
  nodup := h.nodup
  entries := h.entries
  aliases := h.aliases

theorem Walk.entry_fresh (h : d.Walk o aliases (v :: rest) r) (hv : v.id ∉ r.visited)
    (href : (d.node v.id).reference = none) : v.id ∉ r.entries.map (·.id) := by
  intro hmem
  obtain ⟨⟨id, path, kind⟩, he, hid⟩ := List.mem_map.1 hmem
  subst hid
  rcases (h.entries v.id kind).1 ⟨path, he⟩ with hin | ⟨hin, _⟩
  · exact hv hin.1
  · have := h.aliases _ hin
    rw [href] at this
    cases this

theorem Walk.entries_visit (h : d.Walk o aliases (v :: rest) r)
    {entry : Option ReachableSchema} (he : d.EntryOf v entry) (id : Nat) (kind : SchemaClass) :
    (∃ path, ⟨id, path, kind⟩ ∈ r.entries ++ entry.toList) ↔
      (id ∈ v.id :: r.visited ∧ (d.node id).reference = none ∧ ¬d.arena.IsMember id ∧
        classify (d.node id) = .ok kind) ∨ (id ∈ aliases ∧ kind = .ref) := by
  have hmark := (h.pending v List.mem_cons_self).2
  have hold := h.entries id kind
  cases entry with
  | none =>
    simp only [Option.toList_none, List.append_nil, List.mem_cons]
    rw [hold]
    constructor
    · rintro (hin | hin)
      · exact .inl ⟨.inr hin.1, hin.2⟩
      · exact .inr hin
    · rintro (⟨rfl | hin, hrest⟩ | hin)
      · rcases he with hd | hr
        · exact absurd (hmark.1 hd) hrest.2.1
        · rw [hrest.1] at hr
          cases hr
      · exact .inl ⟨hin, hrest⟩
      · exact .inr hin
  | some e =>
    obtain ⟨hdis, href, heid, hkind⟩ := he
    have hnot : ¬d.arena.IsMember v.id := fun hm => by
      have := hmark.2 hm
      rw [hdis] at this
      cases this
    simp only [Option.toList_some, List.mem_append, List.mem_cons, List.not_mem_nil, or_false]
    constructor
    · rintro ⟨path, hp | rfl⟩
      · rcases hold.1 ⟨path, hp⟩ with hin | hin
        · exact .inl ⟨.inr hin.1, hin.2⟩
        · exact .inr hin
      · simp only at heid hkind
        subst heid
        exact .inl ⟨.inl rfl, href, hnot, hkind⟩
    · rintro (⟨rfl | hin, hrest⟩ | hin)
      · refine ⟨e.path, .inr ?_⟩
        have hk : kind = e.kind := by
          have := hrest.2.2.symm.trans hkind
          cases this
          rfl
        rw [hk, ← heid]
      · obtain ⟨path, hp⟩ := hold.2 (.inl ⟨hin, hrest⟩)
        exact ⟨path, .inl hp⟩
      · obtain ⟨path, hp⟩ := hold.2 (.inr hin)
        exact ⟨path, .inl hp⟩

theorem Walk.visit (h : d.Walk o aliases (v :: rest) r) (hv : v.id ∉ r.visited)
    {next : List Visit} {entry : Option ReachableSchema} (hopens : d.Opens v.id)
    (hnext : ∀ id, id ∈ targets next ↔ d.Leads v.id id) (hmarked : ∀ w ∈ next, d.Marked w)
    (he : d.EntryOf v entry) :
    d.Walk o aliases (next ++ rest) ⟨v.id :: r.visited, r.entries ++ entry.toList⟩ where
  reached := List.forall_mem_cons.2 ⟨(h.pending v List.mem_cons_self).1, h.reached⟩
  opens := List.forall_mem_cons.2 ⟨hopens, h.opens⟩
  pending w hw := by
    rcases List.mem_append.1 hw with hw | hw
    · have hl := (hnext w.id).1 (List.mem_map.2 ⟨w, hw, rfl⟩)
      exact ⟨.step (h.pending v List.mem_cons_self).1 hl, hmarked w hw⟩
    · exact h.pending w (List.mem_cons_of_mem _ hw)
  closed id hid n hl := by
    rw [targets_append, List.mem_append, List.mem_cons]
    rcases List.mem_cons.1 hid with rfl | hid
    · exact .inr (.inl ((hnext n).2 hl))
    · rcases h.closed id hid n hl with hn | hn
      · exact .inl (.inr hn)
      · rcases List.mem_cons.1 hn with rfl | hn
        · exact .inl (.inl rfl)
        · exact .inr (.inr hn)
  nodup := by
    cases entry with
    | none => simpa using h.nodup
    | some e =>
      obtain ⟨_, href, heid, _⟩ := he
      have hfresh := h.entry_fresh hv href
      rw [← heid] at hfresh
      rw [Option.toList_some, List.map_append]
      exact List.concat_eq_append ▸ h.nodup.concat hfresh
  entries := h.entries_visit he
  aliases := h.aliases

theorem visitAll_meets (hd : d.Rooted) (visits : List Visit) (r : Reachability)
    (h : d.Walk o aliases visits r) :
    Meets (d.visitAll visits r)
      (fun r' => d.Walk o aliases [] r' ∧ (∀ id ∈ r.visited, id ∈ r'.visited) ∧
        ∀ id ∈ targets visits, id ∈ r'.visited)
      fun e => e.Expected ∧ ¬d.Followable o := by
  fun_induction visitAll d visits r with
  | case1 r => exact ⟨h, fun _ hid => hid, by simp⟩
  | case2 v rest r hopen e hfollow =>
    have hf := (follow_meets hd v).of_error hfollow
    have hreached := (h.pending v List.mem_cons_self).1
    exact ⟨hf.1, fun hfollow => hf.2 (hfollow.opens v.id hreached)⟩
  | case3 v rest r hopen next entry hfollow ih =>
    obtain ⟨hopens, hnext, hmarked, he⟩ := (follow_meets hd v).of_ok hfollow
    refine (ih (h.visit hopen.2 hopens hnext hmarked he)).weaken fun r' hr' => ?_
    obtain ⟨hwalk, hkept, htargets⟩ := hr'
    refine ⟨hwalk, fun id hid => hkept id (List.mem_cons_of_mem _ hid), fun id hid => ?_⟩
    rcases List.mem_cons.1 hid with rfl | hid
    · exact hkept _ List.mem_cons_self
    · exact htargets id (by rw [targets_append]; exact List.mem_append_right _ hid)
  | case4 v rest r hopen ih =>
    have hv : v.id ∈ r.visited := by
      have hlt := hd.lt_of_reached (h.pending v List.mem_cons_self).1
      exact Classical.byContradiction fun hv => hopen ⟨hlt, hv⟩
    refine (ih (h.skip hv)).weaken fun r' hr' => ⟨hr'.1, hr'.2.1, fun id hid => ?_⟩
    rcases List.mem_cons.1 hid with rfl | hid
    · exact hr'.2.1 _ hv
    · exact hr'.2.2 id hid

def keptAliases (d : Document) (o : Options) (entries : List (String × Nat)) : List Nat :=
  (entries.filter fun e => d.isForced o e.2 && (d.node e.2).reference.isSome).map Prod.snd

theorem mem_keptAliases {entries : List (String × Nat)} {id : Nat} :
    id ∈ d.keptAliases o entries ↔ (∃ name, (name, id) ∈ entries) ∧ d.isForced o id = true ∧
      (d.node id).reference.isSome = true := by
  simp only [keptAliases, List.mem_map, List.mem_filter, Bool.and_eq_true]
  constructor
  · rintro ⟨⟨name, i⟩, ⟨hmem, hf, hr⟩, rfl⟩
    exact ⟨⟨name, hmem⟩, hf, hr⟩
  · rintro ⟨⟨name, hmem⟩, hf, hr⟩
    exact ⟨(name, id), ⟨hmem, hf, hr⟩, rfl⟩

structure Keeping (d : Document) (o : Options) (done : List (String × Nat)) (r : Reachability) :
    Prop where
  walk : d.Walk o (d.keptAliases o done) [] r
  used : ∀ id ∈ targets (d.paths.flatMap (·.visits o)), id ∈ r.visited
  kept : ∀ entry ∈ done, d.isForced o entry.2 = true → entry.2 ∈ r.visited
  ends : ∀ entry ∈ done, d.isForced o entry.2 = true → ∀ text,
    (d.node entry.2).reference = some text →
      ∃ target, d.resolveChain text (d.node entry.2).location = .ok target

theorem Walk.record (h : d.Walk o aliases [] r) {id : Nat} (path : List String)
    (href : (d.node id).reference.isSome = true) (hid : id ∉ aliases) :
    d.Walk o (aliases ++ [id]) [] (r.record ⟨id, path, .ref⟩) where
  reached := h.reached
  opens := h.opens
  pending := h.pending
  closed := h.closed
  nodup := by
    have hfresh : id ∉ r.entries.map (·.id) := by
      intro hmem
      obtain ⟨⟨i, p, kind⟩, he, hi⟩ := List.mem_map.1 hmem
      subst hi
      rcases (h.entries i kind).1 ⟨p, he⟩ with hin | ⟨hin, _⟩
      · rw [hin.2.1] at href
        cases href
      · exact hid hin
    rw [Reachability.record, List.map_append]
    exact List.concat_eq_append ▸ h.nodup.concat hfresh
  entries i kind := by
    simp only [Reachability.record, List.mem_append, List.mem_singleton]
    have hold := h.entries i kind
    constructor
    · rintro ⟨p, hp | heq⟩
      · rcases hold.1 ⟨p, hp⟩ with hin | hin
        · exact .inl hin
        · exact .inr ⟨.inl hin.1, hin.2⟩
      · cases heq
        exact .inr ⟨.inr rfl, rfl⟩
    · rintro (hin | ⟨hin | rfl, hk⟩)
      · obtain ⟨p, hp⟩ := hold.2 (.inl hin)
        exact ⟨p, .inl hp⟩
      · obtain ⟨p, hp⟩ := hold.2 (.inr ⟨hin, hk⟩)
        exact ⟨p, .inl hp⟩
      · exact ⟨path, .inr (by rw [hk])⟩
  aliases := List.forall_mem_append.2 ⟨h.aliases, List.forall_mem_singleton.2 href⟩

theorem not_mem_keptAliases (hd : d.Rooted) {done rest : List (String × Nat)} {name : String}
    {id : Nat} (hsplit : d.schemas = done ++ (name, id) :: rest) :
    id ∉ d.keptAliases o done := by
  intro hin
  obtain ⟨⟨other, hother⟩, _⟩ := mem_keptAliases.1 hin
  have hnodup := hd.distinct
  rw [hsplit, OrderedMap.values, List.map_append, List.map_cons, List.nodup_append] at hnodup
  exact hnodup.2.2 id (List.mem_map.2 ⟨_, hother, rfl⟩) id List.mem_cons_self rfl

theorem Keeping.next {done : List (String × Nat)} {e : String × Nat} {r' : Reachability}
    (h : d.Keeping o done r) (hwalk : d.Walk o (d.keptAliases o (done ++ [e])) [] r')
    (hgrown : ∀ id ∈ r.visited, id ∈ r'.visited)
    (hkept : d.isForced o e.2 = true → e.2 ∈ r'.visited)
    (hends : d.isForced o e.2 = true → ∀ text, (d.node e.2).reference = some text →
      ∃ target, d.resolveChain text (d.node e.2).location = .ok target) :
    d.Keeping o (done ++ [e]) r' where
  walk := hwalk
  used id hid := hgrown id (h.used id hid)
  kept := by
    refine List.forall_mem_append.2 ⟨fun old hold hf => ?_, List.forall_mem_singleton.2 hkept⟩
    exact hgrown _ (h.kept old hold hf)
  ends := List.forall_mem_append.2 ⟨h.ends, List.forall_mem_singleton.2 hends⟩

theorem Keeping.visit_meets (hd : d.Rooted) {done : List (String × Nat)} {name : String} {id : Nat}
    {r' : Reachability} (h : d.Keeping o done r) (hentry : d.EntryPoint o id)
    (hwalk : d.Walk o (d.keptAliases o (done ++ [(name, id)])) [] r')
    (hgrown : ∀ i ∈ r.visited, i ∈ r'.visited)
    (hends : ∀ text, (d.node id).reference = some text →
      ∃ target, d.resolveChain text (d.node id).location = .ok target) :
    Meets (d.visitAll [⟨id, [name], false⟩] r') (d.Keeping o (done ++ [(name, id)]))
      fun e => e.Expected ∧ ¬d.Followable o := by
  have hstart : d.Walk o (d.keptAliases o (done ++ [(name, id)])) [⟨id, [name], false⟩] r' :=
    { hwalk with
      pending := List.forall_mem_singleton.2
        ⟨.entry hentry, marked_of_isRoot rfl (hd.entryPoint hentry)⟩
      closed := fun i hi next hl => .inl ((hwalk.closed i hi next hl).resolve_right (by simp)) }
  refine (visitAll_meets hd _ r' hstart).weaken fun r'' hr'' => ?_
  obtain ⟨hwalk'', hgrown'', hid⟩ := hr''
  have hvisited : id ∈ r''.visited := hid id (by simp [targets])
  exact h.next hwalk'' (fun i hi => hgrown'' i (hgrown i hi)) (fun _ => hvisited) fun _ => hends

theorem keepForced_meets (hd : d.Rooted) {done rest : List (String × Nat)} {name : String}
    {id : Nat} (hsplit : d.schemas = done ++ (name, id) :: rest) (h : d.Keeping o done r) :
    Meets (d.keepForced o r (name, id)) (d.Keeping o (done ++ [(name, id)]))
      fun e => e.Expected ∧ ¬d.Followable o := by
  have hmem : (name, id) ∈ d.schemas := by simp [hsplit]
  unfold keepForced
  simp only
  split
  · next hforced =>
    have hentry : d.EntryPoint o id := .kept hmem hforced
    cases href : (d.node id).reference with
    | none =>
      have hsame : d.keptAliases o (done ++ [(name, id)]) = d.keptAliases o done := by
        simp [keptAliases, href]
      simp only [pure_bind]
      exact h.visit_meets hd hentry (hsame ▸ h.walk) (fun _ hi => hi) (by simp [href])
    | some text =>
      have hsome : (d.node id).reference.isSome = true := by rw [href]; rfl
      have hgrown : d.keptAliases o (done ++ [(name, id)]) = d.keptAliases o done ++ [id] := by
        simp [keptAliases, href, hforced]
      simp only [pure_bind]
      have hchain := resolveChain_meets (d := d) text (d.node id).location
      cases hc : d.resolveChain text (d.node id).location with
      | error e =>
        refine ⟨hchain.of_error hc, fun hfollow => ?_⟩
        obtain ⟨target, ht⟩ := hfollow.ends id text ⟨⟨name, hmem⟩, hforced, hsome⟩ href
        rw [hc] at ht
        cases ht
      | ok target =>
        have hrecorded := h.walk.record [name] hsome (not_mem_keptAliases hd hsplit)
        refine h.visit_meets hd hentry (hgrown ▸ hrecorded) (fun _ hi => hi) fun text' ht' => ?_
        rw [href] at ht'
        cases ht'
        exact ⟨target, hc⟩
  · next hforced =>
    have hsame : d.keptAliases o (done ++ [(name, id)]) = d.keptAliases o done := by
      simp [keptAliases, hforced]
    exact h.next (hsame ▸ h.walk) (fun _ hi => hi) (fun hf => absurd hf hforced)
      fun hf => absurd hf hforced

theorem entryPoint_iff {id : Nat} : d.EntryPoint o id ↔
    id ∈ targets (d.paths.flatMap (·.visits o)) ∨
      ∃ name, (name, id) ∈ d.schemas ∧ d.isForced o id = true := by
  rw [targets_flatMap, List.mem_flatMap]
  simp only [mem_targets_pathItem]
  constructor
  · rintro (⟨hi, hop, hs, hp, hid⟩ | ⟨hi, hop, hs, hu⟩ | ⟨hm, hf⟩)
    · exact .inl ⟨_, hi, _, hop, hs, .inr ⟨_, hp, hid⟩⟩
    · exact .inl ⟨_, hi, _, hop, hs, .inl hu⟩
    · exact .inr ⟨_, hm, hf⟩
  · rintro (⟨item, hi, op, hop, hs, hu | ⟨p, hp, hid⟩⟩ | ⟨name, hm, hf⟩)
    · exact .used hi hop hs hu
    · exact .shared hi hop hs hp hid
    · exact .kept hm hf

structure Searched (d : Document) (o : Options) (r : Reachability) : Prop where
  followable : d.Followable o
  visited : ∀ id ∈ r.visited, d.Reached o id
  nodup : (r.entries.map (·.id)).Nodup
  entries : ∀ id kind, (∃ path, ⟨id, path, kind⟩ ∈ r.entries) ↔ d.Recorded o id kind

theorem Keeping.searched (h : d.Keeping o d.schemas r) : d.Searched o r := by
  have hvisited : ∀ id, d.Reached o id → id ∈ r.visited := by
    intro id hid
    induction hid with
    | entry he =>
      rcases entryPoint_iff.1 he with ht | ⟨name, hm, hf⟩
      · exact h.used _ ht
      · exact h.kept _ hm hf
    | step _ hl ih => exact (h.walk.closed _ ih _ hl).resolve_right (by simp)
  refine ⟨⟨fun id hid => h.walk.opens id (hvisited id hid), fun id text hk ht => ?_⟩,
    h.walk.reached, h.walk.nodup, fun id kind => ?_⟩
  · obtain ⟨⟨name, hm⟩, hf, _⟩ := hk
    exact h.ends _ hm hf text ht
  · rw [h.walk.entries id kind, mem_keptAliases]
    constructor
    · rintro (⟨hv, hrest⟩ | hkept)
      · exact .inl ⟨h.walk.reached id hv, hrest⟩
      · exact .inr hkept
    · rintro (⟨hr, hrest⟩ | hkept)
      · exact .inl ⟨hvisited id hr, hrest⟩
      · exact .inr hkept

theorem reachable_meets (hd : d.Rooted) (o : Options) :
    Meets (d.reachable o) (d.Searched o) fun e => e.Expected ∧ ¬d.Followable o := by
  have hstart : d.Walk o [] (d.paths.flatMap (·.visits o)) {} := by
    refine ⟨by simp, by simp, fun v hv => ?_, by simp, by simp, by simp, by simp⟩
    have hentry : d.EntryPoint o v.id :=
      entryPoint_iff.2 (.inl (List.mem_map.2 ⟨v, hv, rfl⟩))
    obtain ⟨item, _, hvisit⟩ := List.mem_flatMap.1 hv
    exact ⟨.entry hentry, marked_of_isRoot (dissolves_pathItem hvisit) (hd.entryPoint hentry)⟩
  unfold reachable
  refine (visitAll_meets hd _ _ hstart).bind fun r _ hr => ?_
  have hfirst : d.Keeping o [] r := ⟨hr.1, hr.2.2, by simp, by simp⟩
  refine (Meets.foldlM (d.Keeping o) hfirst ?_).weaken fun r' hr' => hr'.searched
  rintro done ⟨name, id⟩ rest r' hsplit hr'
  exact keepForced_meets hd hsplit hr'

theorem reachable_exact {text : String} {l : Options} {complaints : List String}
    (h : load text l = .ok (d, complaints)) (o : Options) :
    ((∃ r, d.reachable o = .ok r) ↔ d.Followable o) ∧
      ∀ r, d.reachable o = .ok r → (r.entries.map (·.id)).Nodup ∧
        ∀ id kind, (∃ path, ⟨id, path, kind⟩ ∈ r.entries) ↔ d.Recorded o id kind := by
  have hmeets := reachable_meets (rooted_of_load h) o
  refine ⟨⟨fun ⟨r, hr⟩ => (hmeets.of_ok hr).followable, fun hfollow => ?_⟩, fun r hr => ?_⟩
  · cases hr : d.reachable o with
    | ok r => exact ⟨r, rfl⟩
    | error e => exact absurd hfollow (hmeets.of_error hr).2
  · have hsearched := hmeets.of_ok hr
    exact ⟨hsearched.nodup, hsearched.entries⟩

def sample : String :=
  "\x7bopenapi: '3.1', info: \x7b\x7d, components: \x7bschemas: \x7b" ++
    "A: \x7bproperties: \x7bb: \x7benum: [c], type: string\x7d\x7d\x7d, " ++
    "B: \x7b$ref: '#/components/schemas/A'\x7d, " ++
    "U: \x7boneOf: [\x7b$ref: '#/components/schemas/B'\x7d, \x7b\x7d]\x7d\x7d\x7d\x7d"

def keepAll : Options := { generateAllNamedSchemas := true }

theorem reachable_exact_sample : ∃ d r, load sample {} = .ok (d, []) ∧
    d.reachable keepAll = .ok r ∧ r.entries.length = 5 ∧ d.Followable keepAll ∧
      (r.entries.map (·.id)).Nodup := by
  have hcheck : ((load sample {}).toOption.any fun x => x.2.isEmpty &&
      (x.1.reachable keepAll).toOption.any fun r => r.entries.length == 5) = true := by
    decide +kernel
  obtain ⟨⟨d, complaints⟩, hload, hrest⟩ := ok_of_any hcheck
  obtain ⟨hnone, hreached⟩ := Bool.and_eq_true_iff.1 hrest
  obtain ⟨r, hr, hlength⟩ := ok_of_any hreached
  obtain rfl : complaints = [] := List.isEmpty_iff.1 hnone
  have hexact := reachable_exact hload keepAll
  exact ⟨d, r, hload, hr, beq_iff_eq.1 hlength, hexact.1.1 ⟨r, hr⟩, (hexact.2 r hr).1⟩

end Document

end ApiModel
