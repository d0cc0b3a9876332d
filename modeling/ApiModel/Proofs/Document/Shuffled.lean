import ApiModel.Proofs.Document.Shared

namespace ApiModel

structure Loading.Alike (good : Prop) (l l' : Loading) : Prop where
  knows : l.knows = l'.knows
  complaints : l.complaints.Perm l'.complaints
  quiet : l.complaints = [] → good

theorem Loading.bare_empty : ({} : Loading).Bare := fun s n => by cases s <;> rfl

namespace Loader

variable {α β γ δ : Type} {good : Prop}

def Follow (before after : Loading → Loading → Prop) (R : α → β → Prop) (m : Loader α)
    (m' : Loader β) : Prop :=
  ∀ l l', before l l' → after (m l).2 (m' l').2 ∧ R (m l).1 (m' l').1

theorem Follow.bind {P Q S : Loading → Loading → Prop} {R : α → β → Prop} {T : γ → δ → Prop}
    {m : Loader α} {m' : Loader β} {f : α → Loader γ} {f' : β → Loader δ}
    (h : Follow P Q R m m') (hf : ∀ a b, R a b → Follow Q S T (f a) (f' b)) :
    Follow P S T (m >>= f) (m' >>= f') := by
  intro l l' hl
  obtain ⟨hnext, hR⟩ := h l l' hl
  exact hf _ _ hR _ _ hnext

def Fresh (l l' : Loading) : Prop := l.Bare ∧ l'.Bare ∧ l.complaints.Perm l'.complaints

theorem Echo.complaints_perm {R : α → β → Prop} {m : Loader α} {m' : Loader β}
    (h : Echo (fun _ _ => True) R m m') {l l' : Loading} (hknows : l.knows = l'.knows)
    (hperm : l.complaints.Perm l'.complaints) :
    (m l).2.complaints.Perm (m' l').2.complaints := by
  obtain ⟨⟨said, hsaid, hsaid'⟩, _⟩ := h l l' fun s n _ => by rw [hknows]
  rw [hsaid, hsaid']
  exact hperm.append_right said

theorem Fresh.knows {l l' : Loading} (h : Fresh l l') : l.knows = l'.knows := by
  funext s n
  rw [h.1, h.2.1]

theorem Echo.fresh {R : α → β → Prop} {m : Loader α} {m' : Loader β}
    (h : Echo (fun _ _ => True) R m m') : Follow Fresh Fresh R m m' := by
  intro l l' hl
  obtain ⟨_, hsame, hsame', hR⟩ := h l l' fun s n _ => by rw [hl.knows]
  refine ⟨⟨?_, ?_, h.complaints_perm hl.knows hl.2.2⟩, hR⟩
  · rw [Loading.Bare, hsame.knows]
    exact hl.1
  · rw [Loading.Bare, hsame'.knows]
    exact hl.2.1

theorem bind_of_bare {R : α → α → Prop} {m : Loader α} {f : α → Loader β} {l : Loading}
    (hm : Echo (fun _ _ => True) R m m) (hl : l.Bare) :
    ∃ l₁, l₁.Bare ∧ (m >>= f) l = f (m l).1 l₁ := by
  refine ⟨(m l).2, ?_, rfl⟩
  rw [Loading.Bare, (hm l l fun _ _ _ => rfl).2.1.knows]
  exact hl

theorem Echo.alike {R : α → β → Prop} {m : Loader α} {m' : Loader β}
    (h : Echo (fun _ _ => True) R m m') :
    Follow (Loading.Alike good) (Loading.Alike good) R m m' := by
  intro l l' hl
  obtain ⟨⟨said, hsaid, _⟩, hsame, hsame', hR⟩ := h l l' fun s n _ => by rw [hl.knows]
  refine ⟨⟨?_, h.complaints_perm hl.knows hl.complaints, fun hquiet => hl.quiet ?_⟩, hR⟩
  · rw [hsame.knows, hsame'.knows, hl.knows]
  · rw [hsaid, List.append_eq_nil_iff] at hquiet
    exact hquiet.1

end Loader

namespace Json

def Shuffled (j j' : Option Json) : Prop :=
  j.all isObject = j'.all isObject ∧ (entriesOf j).Perm (entriesOf j')

theorem Shuffled.refl (j : Option Json) : Shuffled j j := ⟨rfl, .refl _⟩

end Json

namespace PartKind

def Settled (k : PartKind) (es : List (String × Json)) : Prop :=
  ∀ name j target, (name, j) ∈ es → k.shelf.decode j = .ok (.reference target) →
    k.shelf.Backed es name

variable {components components' : OrderedMap String Json} {k : PartKind}

theorem alike_load {j j' : Option Json} (hj : Json.Shuffled j j')
    (hnodup : ((Json.entriesOf j).map (·.1)).Nodup)
    (hback : ∀ n, k.shelf.Backed (Json.entriesOf j) n ↔ k.shelf.Backed (Json.entriesOf j') n)
    {l l' : Loading} {good : Prop} (hfresh : ∀ n, l.knows k.place n = false)
    (hl : l.Alike good l') :
    ((k.load j l).2).Alike (good ∧ k.Settled (Json.entriesOf j)) (k.load j' l').2 := by
  have hecho : Loader.Echo (fun _ _ => True) _ _ _ := Loader.echo_objectAt hj.1 k.place.root
  obtain ⟨hstart, -⟩ := hecho.alike l l' hl
  have hfresh' : ∀ n, (Loader.objectAt j k.place.root l).2.knows k.shelf.place n = false :=
    fun n => by rw [(sameParts_objectAt j _ l).knows, hfresh]
  obtain ⟨hknows, hperm⟩ := Shelf.run_perm k.lawful hfresh' hj.2 hnodup hback hstart.knows
    hstart.complaints
  rw [load_eq, load_eq]
  refine ⟨hknows, hperm, fun hquiet => ⟨?_, fun name v target he hv => ?_⟩⟩
  · rw [Shelf.complaints_run k.lawful hfresh' hnodup, List.append_eq_nil_iff] at hquiet
    exact hstart.quiet hquiet.1
  · exact Shelf.backed_of_quiet k.lawful hfresh' hnodup hquiet he hv

theorem alike_loads
    (hshuffled : ∀ k : PartKind, Json.Shuffled (components.get? k.key) (components'.get? k.key))
    (hnodup : ∀ k : PartKind, ((Json.entriesOf (components.get? k.key)).map (·.1)).Nodup)
    (hback : ∀ (k : PartKind) n, k.shelf.Backed (Json.entriesOf (components.get? k.key)) n ↔
      k.shelf.Backed (Json.entriesOf (components'.get? k.key)) n)
    {ks : List PartKind} (hks : ks.Nodup) {l l' : Loading} {good : Prop}
    (hfresh : ∀ k ∈ ks, ∀ n, l.knows k.place n = false) (hl : l.Alike good l') :
    (loads components ks l).Alike
      (good ∧ ∀ k ∈ ks, k.Settled (Json.entriesOf (components.get? k.key)))
      (loads components' ks l') := by
  induction ks generalizing l l' good with
  | nil => exact ⟨hl.knows, hl.complaints, fun h => ⟨hl.quiet h, fun _ hk => nomatch hk⟩⟩
  | cons k ks ih =>
    have hk := alike_load (hshuffled k) (hnodup k) (hback k) (hfresh k List.mem_cons_self) hl
    have hrest := ih (List.nodup_cons.1 hks).2 (fun k' hk' n => ?_) hk
    · refine ⟨hrest.knows, hrest.complaints, fun hquiet => ?_⟩
      obtain ⟨⟨hgood, hfirst⟩, hothers⟩ := hrest.quiet hquiet
      refine ⟨hgood, fun k' hk' => ?_⟩
      rcases List.mem_cons.1 hk' with rfl | hk'
      · exact hfirst
      · exact hothers k' hk'
    · have hne : k' ≠ k := fun heq => (List.nodup_cons.1 hks).1 (heq ▸ hk')
      rw [(load_others hne _ l).knows]
      exact hfresh k' (List.mem_cons_of_mem _ hk') n

end PartKind

namespace Document

def sharedEntries (root : OrderedMap String Json) (k : PartKind) : OrderedMap String Json :=
  componentEntries root k.key

structure Shuffled (root root' : OrderedMap String Json) : Prop where
  others : ∀ key, key ≠ "components" → root.get? key = root'.get? key
  components : (root.get? "components").all Json.isObject =
    (root'.get? "components").all Json.isObject
  unshared : ∀ key, (∀ k : PartKind, key ≠ k.key) →
    (rootEntries root "components").get? key = (rootEntries root' "components").get? key
  shared : ∀ k : PartKind, Json.Shuffled ((rootEntries root "components").get? k.key)
    ((rootEntries root' "components").get? k.key)

variable {root root' : OrderedMap String Json}

theorem Shuffled.refl (root : OrderedMap String Json) : Shuffled root root :=
  ⟨fun _ _ => rfl, rfl, fun _ _ => rfl, fun _ => .refl _⟩

theorem nodup_sharedEntries (hroot : (Json.object root).Distinct) (k : PartKind) :
    ((sharedEntries root k).map (·.1)).Nodup := by
  have hcomponents : ∀ e ∈ rootEntries root "components", e.2.Distinct :=
    (Json.Distinct.entriesOf fun v hv => hroot.get? hv).2
  exact (Json.Distinct.entriesOf fun v hv => hcomponents _ (OrderedMap.mem_of_get? hv)).1

theorem follow_document (hroot : (Json.object root).Distinct) (h : Shuffled root root')
    (hback : ∀ (k : PartKind) n, k.shelf.Backed (sharedEntries root k) n ↔
      k.shelf.Backed (sharedEntries root' k) n) :
    Loader.Follow Loader.Fresh (Loading.Alike (∀ k : PartKind, k.Settled (sharedEntries root k)))
      (fun _ _ => True) (Loader.document root) (Loader.document root') := by
  have hshared : Loader.Follow Loader.Fresh
      (Loading.Alike (∀ k : PartKind, k.Settled (sharedEntries root k))) (fun _ _ => True)
      (Loader.sharedParts (rootEntries root "components"))
      (Loader.sharedParts (rootEntries root' "components")) := by
    intro l l' hl
    rw [Loader.sharedParts_eq, Loader.sharedParts_eq]
    have hstart : l.Alike True l' := ⟨hl.knows, hl.2.2, fun _ => trivial⟩
    have hloads := PartKind.alike_loads h.shared (nodup_sharedEntries hroot) hback
      PartKind.nodup_all (fun k _ n => hl.1 _ n) hstart
    exact ⟨⟨hloads.knows, hloads.complaints, fun hquiet k => (hloads.quiet hquiet).2 k k.mem_all⟩,
      trivial⟩
  unfold Loader.document
  rw [h.others "openapi" (by decide), h.others "info" (by decide), h.others "servers" (by decide),
    h.others "security" (by decide), h.others "paths" (by decide)]
  refine (Loader.echo_version _).fresh.bind fun _ _ _ => ?_
  refine (Loader.echo_info _).fresh.bind fun _ _ _ => ?_
  refine (Loader.echo_optionalPart _ _ _).fresh.bind fun _ _ _ => ?_
  refine (Loader.echo_optionalPart _ _ _).fresh.bind fun _ _ _ => ?_
  refine (Loader.echo_objectAt h.components _).fresh.bind fun es es' hes => ?_
  obtain ⟨rfl, rfl⟩ := hes
  have hschemas : ∀ k : PartKind, "schemas" ≠ k.key := fun k => by cases k <;> decide
  have hschemes : ∀ k : PartKind, "securitySchemes" ≠ k.key := fun k => by cases k <;> decide
  change Loader.Follow _ _ _
    (Loader.schemas ((rootEntries root "components").get? "schemas") >>= _)
    (Loader.schemas ((rootEntries root' "components").get? "schemas") >>= _)
  rw [h.unshared "schemas" hschemas]
  refine (Loader.echo_schemas _).fresh.bind fun _ _ _ => ?_
  refine (Loader.echo_markComponents _ _).fresh.bind fun _ _ _ => ?_
  change Loader.Follow _ _ _
    (Loader.securitySchemes ((rootEntries root "components").get? "securitySchemes") >>= _)
    (Loader.securitySchemes ((rootEntries root' "components").get? "securitySchemes") >>= _)
  rw [h.unshared "securitySchemes" hschemes]
  refine (Loader.echo_securitySchemes _).fresh.bind fun _ _ _ => ?_
  refine hshared.bind fun _ _ _ => ?_
  refine (Loader.echo_objectAt rfl _).alike.bind fun es es' hes => ?_
  obtain ⟨rfl, rfl⟩ := hes
  refine Loader.Follow.bind (Loader.Echo.alike (Loader.Echo.filterMapM fun e _ =>
    Loader.echo_pathItem (fun _ _ => trivial) e.1 e.2)) fun _ _ _ => ?_
  exact Loader.echo_get.alike.bind fun _ _ _ => (Loader.Echo.pure trivial).alike

theorem document_shared (root : OrderedMap String Json) :
    ∃ (l : Loading) (rest : Loader Document), l.Bare ∧ Loader.document root {} =
      (Loader.sharedParts (rootEntries root "components") >>= fun _ => rest) l := by
  unfold Loader.document
  obtain ⟨l₁, hl₁, h₁⟩ := Loader.bind_of_bare (Loader.echo_version _) Loading.bare_empty
  rw [h₁]
  obtain ⟨l₂, hl₂, h₂⟩ := Loader.bind_of_bare (Loader.echo_info _) hl₁
  rw [h₂]
  obtain ⟨l₃, hl₃, h₃⟩ := Loader.bind_of_bare (Loader.echo_optionalPart _ _ _) hl₂
  rw [h₃]
  obtain ⟨l₄, hl₄, h₄⟩ := Loader.bind_of_bare (Loader.echo_optionalPart _ _ _) hl₃
  rw [h₄]
  obtain ⟨l₅, hl₅, h₅⟩ := Loader.bind_of_bare (Loader.echo_objectAt rfl _) hl₄
  have hes : (Loader.objectAt (root.get? "components") "#/components" l₄).1 =
      rootEntries root "components" := by
    rw [Loader.objectAt_eq]
    split <;> rfl
  rw [h₅, hes]
  obtain ⟨l₆, hl₆, h₆⟩ := Loader.bind_of_bare (Loader.echo_schemas _) hl₅
  rw [h₆]
  obtain ⟨l₇, hl₇, h₇⟩ := Loader.bind_of_bare (Loader.echo_markComponents _ _) hl₆
  rw [h₇]
  obtain ⟨l₈, hl₈, h₈⟩ := Loader.bind_of_bare (Loader.echo_securitySchemes _) hl₇
  rw [h₈]
  exact ⟨l₈, _, hl₈, rfl⟩

theorem settled_of_quiet (hroot : (Json.object root).Distinct) (hquiet : (ofRoot root).2 = [])
    (k : PartKind) : k.Settled (sharedEntries root k) := by
  obtain ⟨halike, -⟩ := follow_document hroot (.refl root) (fun _ _ => Iff.rfl) {} {}
    ⟨Loading.bare_empty, Loading.bare_empty, .refl _⟩
  exact halike.quiet hquiet k

theorem complaints_perm (hroot : (Json.object root).Distinct) (h : Shuffled root root')
    (hback : ∀ (k : PartKind) n, k.shelf.Backed (sharedEntries root k) n ↔
      k.shelf.Backed (sharedEntries root' k) n) :
    (ofRoot root).2.Perm (ofRoot root').2 := by
  obtain ⟨halike, -⟩ := follow_document hroot h hback {} {}
    ⟨Loading.bare_empty, Loading.bare_empty, .refl _⟩
  exact halike.complaints

theorem Shuffled.backed (h : Shuffled root root')
    (hroot : ∀ k : PartKind, k.Settled (sharedEntries root k))
    (hroot' : ∀ k : PartKind, k.Settled (sharedEntries root' k)) (k : PartKind) (n : String) :
    k.shelf.Backed (sharedEntries root k) n ↔ k.shelf.Backed (sharedEntries root' k) n :=
  ⟨Shelf.backed_of_perm (h.shared k).2 (hroot' k),
    Shelf.backed_of_perm (h.shared k).2.symm (hroot k)⟩

theorem Shuffled.declarations (h : Shuffled root root') :
    declarationsOf root' = declarationsOf root := by
  funext s name j
  refine propext ?_
  have hshared : ∀ k : PartKind,
      (name, j) ∈ sharedEntries root' k ↔ (name, j) ∈ sharedEntries root k :=
    fun k => (h.shared k).2.mem_iff.symm
  cases s with
  | headers => exact hshared .header
  | parameters => exact hshared .parameter
  | requestBodies => exact hshared .requestBody
  | responses => exact hshared .response
  | schemas =>
    have hkey : ∀ k : PartKind, Section.schemas.key ≠ k.key := fun k => by cases k <;> decide
    rw [declarationsOf, declarationsOf, componentEntries, componentEntries, h.unshared _ hkey]

theorem Complete.of_shuffled {d : Document} (h : Shuffled root root') (hd : d.Complete root') :
    d.Complete root := by
  have hschemas : componentEntries root "schemas" = componentEntries root' "schemas" :=
    congrArg Json.entriesOf (h.unshared _ fun k => by cases k <;> decide)
  have hschemes : componentEntries root "securitySchemes" =
      componentEntries root' "securitySchemes" :=
    congrArg Json.entriesOf (h.unshared _ fun k => by cases k <;> decide)
  have hpaths : rootEntries root "paths" = rootEntries root' "paths" :=
    congrArg Json.entriesOf (h.others _ (by decide))
  refine ⟨?_, ?_, ?_⟩
  · rw [hschemas]
    exact hd.schemas
  · rw [hschemes]
    exact hd.securitySchemes
  · rw [hpaths, ← h.declarations]
    exact hd.paths

theorem load_of_root {text : String} (hroot : root? text = .ok root) (o : Options) :
    load text o = if (ofRoot root).2.isEmpty || o.allowParseErrors then .ok (ofRoot root)
      else .error (.malformed (.complaints (ofRoot root).2)) := by
  unfold load
  rw [hroot]
  rfl

theorem load_quiet_iff {text : String} (hroot : root? text = .ok root) {o : Options}
    (ho : o.allowParseErrors = false) {d : Document} :
    load text o = .ok (d, []) ↔ (ofRoot root).2 = [] ∧ (ofRoot root).1 = d := by
  rw [load_of_root hroot, ho, Bool.or_false]
  constructor
  · intro h
    split at h
    · next hempty =>
      refine ⟨List.isEmpty_iff.1 hempty, ?_⟩
      exact congrArg Prod.fst (Except.ok.inj h)
    · cases h
  · rintro ⟨hquiet, rfl⟩
    rw [if_pos (List.isEmpty_iff.2 hquiet), ← hquiet]

/-- A reference among the shared parts resolves to what its chain ends at if each link of the chain
refers to an entry that stands before it, and is complained about otherwise. Orders of the shared
parts that do not differ in this do not differ in what they load. -/
theorem load_order {text : String} (hroot : root? text = .ok root) :
    (∃ (l : Loading) (rest : Loader Document), l.Bare ∧ Loader.document root {} =
      (Loader.sharedParts (rootEntries root "components") >>= fun _ => rest) l) ∧
    (∀ (k : PartKind) n, (k.shelf.Backed (sharedEntries root k) n →
        k.shelf.Grounded (sharedEntries root k) n) ∧
      (k.shelf.Ordered (sharedEntries root k) → k.shelf.Grounded (sharedEntries root k) n →
        k.shelf.Backed (sharedEntries root k) n)) ∧
    (∀ (k : PartKind) (l : Loading), l.Bare →
      k.Resolves (sharedEntries root k)
        (Loader.sharedParts (rootEntries root "components") l).2 ∧ k.Reports l) ∧
    ∀ text' root', root? text' = .ok root' → Shuffled root root' →
      ((∀ (k : PartKind) n, k.shelf.Backed (sharedEntries root k) n ↔
          k.shelf.Backed (sharedEntries root' k) n) →
        (ofRoot root).2.Perm (ofRoot root').2 ∧ ∀ o, (load text o).isOk = (load text' o).isOk) ∧
      ∀ o d, o.allowParseErrors = false → load text o = .ok (d, []) →
        ((∃ d', load text' o = .ok (d', [])) ↔
          ∀ k : PartKind, k.Settled (sharedEntries root' k)) ∧
        ∀ d', load text' o = .ok (d', []) → d.Complete root ∧ d'.Complete root := by
  have hdistinct := root?_distinct hroot
  refine ⟨document_shared root, fun k n => ⟨fun hn => hn.grounded, fun hordered hn => ?_⟩,
    fun k l hl => ⟨?_, k.reports_of_bare hl⟩,
    fun text' root' hroot' hshuffled => ⟨fun hback => ?_, fun o d ho hload => ⟨?_, ?_⟩⟩⟩
  · exact hn.backed hordered (nodup_sharedEntries hdistinct k)
  · exact PartKind.resolves_sharedParts hl (nodup_sharedEntries hdistinct k)
  · have hperm := complaints_perm hdistinct hshuffled hback
    refine ⟨hperm, fun o => ?_⟩
    rw [load_of_root hroot, load_of_root hroot', hperm.isEmpty_eq]
    split <;> rfl
  · obtain ⟨hquiet, -⟩ := (load_quiet_iff hroot ho).1 hload
    constructor
    · rintro ⟨d', hload'⟩
      exact settled_of_quiet (root?_distinct hroot') ((load_quiet_iff hroot' ho).1 hload').1
    · intro hsettled
      have hback := hshuffled.backed (settled_of_quiet hdistinct hquiet) hsettled
      have hperm := complaints_perm hdistinct hshuffled hback
      rw [hquiet] at hperm
      exact ⟨_, (load_quiet_iff hroot' ho).2 ⟨hperm.nil_eq.symm, rfl⟩⟩
  · intro d' hload'
    obtain ⟨hquiet, rfl⟩ := (load_quiet_iff hroot ho).1 hload
    obtain ⟨hquiet', rfl⟩ := (load_quiet_iff hroot' ho).1 hload'
    exact ⟨complete_ofRoot hdistinct hquiet,
      (complete_ofRoot (root?_distinct hroot') hquiet').of_shuffled hshuffled⟩

end Document

namespace Json

mutual

def same : Json → Json → Bool
  | .null, .null => true
  | .bool a, .bool b => a == b
  | .number m, .number n => decide (m = n)
  | .string s, .string t => s == t
  | .array js, .array ks => sameItems js ks
  | .object es, .object fs => sameEntries es fs
  | _, _ => false

def sameItems : List Json → List Json → Bool
  | [], [] => true
  | j :: js, k :: ks => j.same k && sameItems js ks
  | _, _ => false

def sameEntries : List (String × Json) → List (String × Json) → Bool
  | [], [] => true
  | (a, j) :: es, (b, k) :: fs => a == b && j.same k && sameEntries es fs
  | _, _ => false

end

mutual

theorem eq_of_same : ∀ {j k : Json}, j.same k = true → j = k
  | .null, k, h => by
    cases k with
    | null => rfl
    | _ => simp [same] at h
  | .bool a, k, h => by
    cases k with
    | bool b => rw [beq_iff_eq.1 h]
    | _ => simp [same] at h
  | .number m, k, h => by
    cases k with
    | number n => rw [of_decide_eq_true h]
    | _ => simp [same] at h
  | .string s, k, h => by
    cases k with
    | string t => rw [beq_iff_eq.1 h]
    | _ => simp [same] at h
  | .array js, k, h => by
    cases k with
    | array ks => rw [eq_of_sameItems h]
    | _ => simp [same] at h
  | .object es, k, h => by
    cases k with
    | object fs => rw [eq_of_sameEntries h]
    | _ => simp [same] at h

theorem eq_of_sameItems : ∀ {js ks : List Json}, sameItems js ks = true → js = ks
  | [], [], _ => rfl
  | j :: js, k :: ks, h => by
    rw [sameItems, Bool.and_eq_true] at h
    rw [eq_of_same h.1, eq_of_sameItems h.2]

theorem eq_of_sameEntries : ∀ {es fs : List (String × Json)}, sameEntries es fs = true → es = fs
  | [], [], _ => rfl
  | (a, j) :: es, (b, k) :: fs, h => by
    rw [sameEntries, Bool.and_eq_true, Bool.and_eq_true, beq_iff_eq] at h
    rw [h.1.1, eq_of_same h.1.2, eq_of_sameEntries h.2]

end

end Json

namespace Document

def headed (headers : String) : String :=
  "\x7bopenapi: '3.1', info: \x7b\x7d, paths: \x7b\x7d, components: \x7bheaders: \x7b" ++
    headers ++ "\x7d\x7d\x7d"

def headedRoot (headers : List (String × Json)) : OrderedMap String Json :=
  [("openapi", .string "3.1"), ("info", .object []), ("paths", .object []),
    ("components", .object [("headers", .object headers)])]

def limitFirst : String :=
  headed "Limit: \x7b\x7d, Rate: \x7b$ref: '#/components/headers/Limit'\x7d, Tag: \x7b\x7d"

def tagFirst : String :=
  headed "Tag: \x7b\x7d, Limit: \x7b\x7d, Rate: \x7b$ref: '#/components/headers/Limit'\x7d"

def rateFirst : String :=
  headed "Rate: \x7b$ref: '#/components/headers/Limit'\x7d, Limit: \x7b\x7d, Tag: \x7b\x7d"

def limit : String × Json := ("Limit", .object [])

def rate : String × Json := ("Rate", .object [("$ref", .string "#/components/headers/Limit")])

def tag : String × Json := ("Tag", .object [])

theorem root?_of_same {text : String} {root : OrderedMap String Json}
    (h : ((root? text).toOption.any (Json.sameEntries root)) = true) : root? text = .ok root := by
  obtain ⟨root', hroot, hsame⟩ := ok_of_any h
  rw [hroot, Json.eq_of_sameEntries hsame]

theorem root?_limitFirst : root? limitFirst = .ok (headedRoot [limit, rate, tag]) :=
  root?_of_same (by decide +kernel)

theorem root?_tagFirst : root? tagFirst = .ok (headedRoot [tag, limit, rate]) :=
  root?_of_same (by decide +kernel)

theorem root?_rateFirst : root? rateFirst = .ok (headedRoot [rate, limit, tag]) :=
  root?_of_same (by decide +kernel)

theorem headedRoot_shuffled {es es' : List (String × Json)} (h : es.Perm es') :
    Shuffled (headedRoot es) (headedRoot es') where
  others key hkey := by
    simp only [headedRoot, OrderedMap.get?, if_neg hkey.symm]
  components := rfl
  unshared key hkey := by
    have hheaders : ¬ "headers" = key := (hkey .header).symm
    have hentries : ∀ es, rootEntries (headedRoot es) "components" = [("headers", .object es)] :=
      fun _ => rfl
    simp only [hentries, OrderedMap.get?, if_neg hheaders]
  shared k := by
    cases k with
    | header => exact ⟨rfl, h⟩
    | _ => exact .refl _

theorem load_order_limitFirst :
    root? limitFirst = .ok (headedRoot [limit, rate, tag]) ∧
    root? tagFirst = .ok (headedRoot [tag, limit, rate]) ∧
    Shuffled (headedRoot [limit, rate, tag]) (headedRoot [tag, limit, rate]) ∧
    (∀ o, (load limitFirst o).isOk = (load tagFirst o).isOk) ∧
    ∃ d d', load limitFirst {} = .ok (d, []) ∧ load tagFirst {} = .ok (d', []) ∧
      d.Complete (headedRoot [limit, rate, tag]) ∧ d'.Complete (headedRoot [limit, rate, tag]) := by
  have hshuffled : Shuffled (headedRoot [limit, rate, tag]) (headedRoot [tag, limit, rate]) :=
    headedRoot_shuffled
      (show ([limit, rate] ++ [tag]).Perm ([tag] ++ [limit, rate]) from List.perm_append_comm)
  have hquiet : (ofRoot (headedRoot [limit, rate, tag])).2 = [] := by decide +kernel
  have hquiet' : (ofRoot (headedRoot [tag, limit, rate])).2 = [] := by decide +kernel
  have hload := (load_quiet_iff root?_limitFirst (o := {}) rfl).2 ⟨hquiet, rfl⟩
  have hload' := (load_quiet_iff root?_tagFirst (o := {}) rfl).2 ⟨hquiet', rfl⟩
  have hback := hshuffled.backed (settled_of_quiet (root?_distinct root?_limitFirst) hquiet)
    (settled_of_quiet (root?_distinct root?_tagFirst) hquiet')
  obtain ⟨hagree, hstrict⟩ :=
    (load_order root?_limitFirst).2.2.2 tagFirst _ root?_tagFirst hshuffled
  exact ⟨root?_limitFirst, root?_tagFirst, hshuffled, (hagree hback).2, _, _, hload, hload',
    (hstrict {} _ rfl hload).2 _ hload'⟩

theorem rateFirst_fails :
    root? limitFirst = .ok (headedRoot [limit, rate, tag]) ∧
    root? rateFirst = .ok (headedRoot [rate, limit, tag]) ∧
    Shuffled (headedRoot [limit, rate, tag]) (headedRoot [rate, limit, tag]) ∧
    (load limitFirst {}).isOk = true ∧
    load rateFirst {} = .error (.malformed (.complaints
      ["#/components/headers/Rate: cannot resolve '#/components/headers/Limit'"])) := by
  refine ⟨root?_limitFirst, root?_rateFirst, headedRoot_shuffled (.swap _ _ _), ?_, ?_⟩
  · rw [load_of_root root?_limitFirst]
    decide +kernel
  · rw [load_of_root root?_rateFirst]
    have hsaid : (ofRoot (headedRoot [rate, limit, tag])).2 =
        ["#/components/headers/Rate: cannot resolve '#/components/headers/Limit'"] := by
      decide +kernel
    rw [hsaid]
    rfl

end Document

end ApiModel
