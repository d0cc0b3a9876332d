import ApiModel.Proofs.Document.Located

namespace ApiModel

section

variable {α β : Type}

theorem Salvaged.exists_of_mem {R : α → Option β → Prop} {xs : List α} {ys : List β}
    (h : Salvaged R xs ys) {y : β} (hy : y ∈ ys) : ∃ x ∈ xs, R x (some y) := by
  induction h with
  | nil => cases hy
  | @kept x xs y' ys hx _ ih =>
    rcases List.mem_cons.1 hy with rfl | hy
    · exact ⟨x, List.mem_cons_self, hx⟩
    · obtain ⟨x', hx', hr⟩ := ih hy
      exact ⟨x', List.mem_cons_of_mem x hx', hr⟩
  | @dropped x xs ys _ _ ih =>
    obtain ⟨x', hx', hr⟩ := ih hy
    exact ⟨x', List.mem_cons_of_mem x hx', hr⟩

end

theorem Json.Sited.location {a : Arena} {place : String} {j : Json} {id : Nat}
    (h : j.Sited a place (some id)) : (a.node id).location = place := by
  unfold Json.Sited at h
  split at h
  · next s hs =>
    obtain ⟨i, hi, hholds⟩ := h
    obtain rfl := Option.some.inj hi
    cases s with
    | mk keywords extensions parts =>
      obtain ⟨mark, hnode⟩ := hholds 0 _ rfl
      rw [Nat.add_zero] at hnode
      rw [Arena.node, hnode]
      rfl
  · cases h

namespace Loader

variable {α β : Type}

theorem entries_cons (name : String) (part : α) (m : OrderedMap String α)
    (load : α → String → Loader (Option β)) (location : String) :
    entries ((name, part) :: m) load location = (do
      let first ← load part (location ++ "/" ++ escapeSegment name)
      let rest ← entries m load location
      return (first.map (name, ·)).toList ++ rest) := by
  unfold entries
  rw [List.filterMapM_cons, bind_assoc]
  refine bind_congr fun first => ?_
  rw [pure_bind]
  cases first with
  | none => exact (bind_pure _).symm
  | some x => rfl

theorem keys_entries (m : OrderedMap String α) (load : α → String → Loader (Option β))
    (location : String) (l : Loading) :
    (OrderedMap.keys (entries m load location l).1).Sublist m.keys := by
  induction m generalizing l with
  | nil => exact .refl []
  | cons e m ih =>
    obtain ⟨name, part⟩ := e
    have hrest := ih (load part (location ++ "/" ++ escapeSegment name) l).2
    rw [entries_cons]
    change (OrderedMap.keys (((load part (location ++ "/" ++ escapeSegment name) l).1.map
      (name, ·)).toList ++ (entries m load location _).1)).Sublist (name :: OrderedMap.keys m)
    cases (load part (location ++ "/" ++ escapeSegment name) l).1 with
    | none => exact hrest.cons name
    | some x => exact hrest.cons_cons name

theorem objectAt_entriesOf (j : Option Json) (location : String) (l : Loading) :
    (objectAt j location l).1 = Json.entriesOf j := by
  cases j with
  | none => rfl
  | some j => cases j <;> rfl

theorem nodup_keys_section {j : Option Json} (h : ∀ v, j = some v → v.Distinct)
    (load : Json → String → Loader (Option β)) (location : String) (l l' : Loading) :
    (OrderedMap.keys (entries (objectAt j location l).1 load location l').1).Nodup := by
  rw [objectAt_entriesOf]
  exact (Json.Distinct.entriesOf h).1.sublist (keys_entries _ _ _ _)

end Loader

namespace Document

variable {text : String} {o : Options} {d : Document} {complaints : List String}

theorem exists_sections (root : OrderedMap String Json) : ∃ l₁ l₂ l₃ l₄ l₅ : Loading,
    (ofRoot root).1.schemas = (Loader.entries (Loader.objectAt (OrderedMap.get?
        (Loader.objectAt (root.get? "components") "#/components" l₁).1 "schemas")
          "#/components/schemas" l₂).1 Loader.schema "#/components/schemas" l₃).1 ∧
    (ofRoot root).1.securitySchemes = (Loader.entries (Loader.objectAt (OrderedMap.get?
        (Loader.objectAt (root.get? "components") "#/components" l₁).1 "securitySchemes")
          "#/components/securitySchemes" l₄).1 (Loader.read SecuritySchemeObject.decode)
            "#/components/securitySchemes" l₅).1 :=
  ⟨_, _, _, _, _, rfl, rfl⟩

structure Keyed (d : Document) : Prop where
  schemas : d.schemas.keys.Nodup
  securitySchemes : d.securitySchemes.keys.Nodup

theorem keyed_of_load (hload : load text o = .ok (d, complaints)) : d.Keyed := by
  obtain ⟨root, hroot, hof⟩ := ofRoot_of_load hload
  obtain rfl : (ofRoot root).1 = d := congrArg Prod.fst hof
  obtain ⟨l₁, l₂, l₃, l₄, l₅, hschemas, hschemes⟩ := exists_sections root
  have hcomponents : ∀ key v, OrderedMap.get?
      (Loader.objectAt (root.get? "components") "#/components" l₁).1 key = some v → v.Distinct := by
    rw [Loader.objectAt_entriesOf]
    have hentries := Json.Distinct.entriesOf fun v (hv : root.get? "components" = some v) =>
      (root?_distinct hroot).get? hv
    exact fun key v hv => hentries.2 _ (OrderedMap.mem_of_get? hv)
  constructor
  · rw [hschemas]
    exact Loader.nodup_keys_section (hcomponents _) _ _ _ _
  · rw [hschemes]
    exact Loader.nodup_keys_section (hcomponents _) _ _ _ _

theorem location_of_load (hload : load text o = .ok (d, complaints)) {name : String} {id : Nat}
    (hmem : (name, id) ∈ d.schemas) : (d.node id).location = Section.schemas.location name := by
  obtain ⟨root, hroot, hof⟩ := ofRoot_of_load hload
  obtain ⟨-, -, hsited⟩ := Loader.builds_document (root?_distinct hroot) (l := {})
    fun k => by cases k <;> rfl
  obtain rfl : ((Loader.document root).run {}).1 = d := congrArg Prod.fst hof
  obtain ⟨e, -, entry, hentry, hjson⟩ := hsited.schemas.exists_of_mem hmem
  obtain ⟨found, rfl, heq⟩ := Option.map_eq_some_iff.1 hentry.symm
  obtain ⟨hname, rfl⟩ := Prod.mk.inj heq
  rw [← hname]
  exact hjson.location

end Document

end ApiModel
