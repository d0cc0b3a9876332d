import ApiModel.Proofs.ModelTree.Exact
import ApiModel.Union

namespace ApiModel

theorem TypeNames.joined_child (n : TypeNames) (segment : String) :
    (n.child segment).joined = n.joined ++ segment := by
  simp [joined, String.join_append, String.join_cons]

namespace OrderedMap

variable {α β : Type} [DecidableEq α]

theorem get?_append (m m' : OrderedMap α β) (key : α) :
    get? (m ++ m') key = (get? m key).or (get? m' key) := by
  induction m with
  | nil => rfl
  | cons e rest ih =>
    obtain ⟨k, v⟩ := e
    by_cases hk : k = key
    · simp [get?, hk]
    · simp only [List.cons_append, get?, hk, if_false, ih]

theorem get?_insertNew (m : OrderedMap α β) (k : α) (v : β) (key : α) :
    (m.insertNew k v).get? key = get? (m ++ [(k, v)]) key := by
  have hsingle : get? [(k, v)] key = if k = key then some v else none := by simp [get?]
  rw [get?_append, hsingle, insertNew, contains]
  split
  · next hknown =>
    obtain ⟨old, hold⟩ := Option.isSome_iff_exists.1 hknown
    by_cases hk : k = key
    · rw [← hk, hold, Option.some_or]
    · simp [hk]
  · next hnew =>
    rw [Bool.not_eq_true, Option.isSome_eq_false_iff, Option.isNone_iff_eq_none] at hnew
    by_cases hk : k = key
    · rw [← hk, get?_insert_self, hnew]
      simp
    · rw [get?_insert_of_ne _ _ (Ne.symm hk)]
      simp [hk]

theorem get?_foldl_insertNew (entries : List (α × β)) (m : OrderedMap α β) (key : α) :
    get? (entries.foldl (fun acc e => acc.insertNew e.1 e.2) m) key = get? (m ++ entries) key := by
  induction entries generalizing m with
  | nil => rw [List.foldl_nil, List.append_nil]
  | cons e entries ih =>
    rw [List.foldl_cons, ih, get?_append, get?_insertNew, ← get?_append]
    simp

end OrderedMap

def ConversionError.Tagless : ConversionError → Prop
  | .duplicateTag _ _ => False
  | _ => True

def PointsAt (target reference declared : String) : Prop :=
  target = reference ∨ target = declared ∨ Document.schemaName? target = some declared

inductive TagOf (mapping : OrderedMap String String) (reference declared : String) : String → Prop
  | mapped {before after : List (String × String)} {tag target : String} :
      mapping = before ++ (tag, target) :: after → PointsAt target reference declared →
        (∀ e ∈ before, ¬PointsAt e.2 reference declared) → TagOf mapping reference declared tag
  | declared : (∀ e ∈ mapping, ¬PointsAt e.2 reference declared) →
      TagOf mapping reference declared declared

inductive FirstNamed (d : Document) (t : ModelTree) : String → TypeNames → Prop
  | here {reference : String} {id : Nat} {names : TypeNames} : d.resolve? reference = some id →
      t.names? id = some names → FirstNamed d t reference names
  | along {reference next : String} {id : Nat} {names : TypeNames} :
      d.resolve? reference = some id → t.names? id = none → (d.node id).reference = some next →
        FirstNamed d t next names → FirstNamed d t reference names

inductive Means (d : Document) (t : ModelTree) (u : ModelNode) (number member : Nat) :
    SealedVariant → Prop
  | referenced {reference declared tag : String} {names : TypeNames} :
      (d.node member).reference = some reference → FirstNamed d t reference names →
        Document.schemaName? reference = some declared →
          TagOf (Unions.mappingOf (d.node u.id)) reference declared tag →
            Means d t u number member ⟨tag, names⟩
  | inline : (d.node member).reference = none →
      Means d t u number member
        ⟨u.names.joined ++ "OneOf" ++ toString number,
          u.names.child ("OneOf" ++ toString number)⟩

variable {d : Document} {o : Options} {t t' : ModelTree} {u : ModelNode} {number member : Nat}
  {reference declared tag target location : String} {names names' : TypeNames}
  {mapping : OrderedMap String String}

theorem pointsAt_iff :
    Unions.pointsAt target reference declared = true ↔ PointsAt target reference declared := by
  simp only [Unions.pointsAt, PointsAt, Bool.or_eq_true, beq_iff_eq, or_assoc]

theorem tagOf_iff : TagOf mapping reference declared tag ↔
    tag = (Unions.mappingTag? mapping reference declared).getD declared := by
  unfold Unions.mappingTag?
  constructor
  · intro h
    cases h with
    | @mapped before after tag target hsplit hpoints hbefore =>
      have hfind : mapping.find? (fun e => Unions.pointsAt e.2 reference declared) =
          some (tag, target) := by
        apply List.find?_eq_some_iff_append.2
        refine ⟨pointsAt_iff.2 hpoints, before, after, hsplit, fun e he => ?_⟩
        rw [Bool.not_eq_true', Bool.eq_false_iff]
        exact fun hpoint => hbefore e he (pointsAt_iff.1 hpoint)
      rw [hfind]
      rfl
    | declared hnone =>
      have hfind : mapping.find? (fun e => Unions.pointsAt e.2 reference declared) = none := by
        apply List.find?_eq_none.2
        intro e he hpoint
        exact hnone e he (pointsAt_iff.1 hpoint)
      rw [hfind]
      rfl
  · rintro rfl
    cases hfind : mapping.find? (fun e => Unions.pointsAt e.2 reference declared) with
    | none =>
      apply TagOf.declared
      intro e he hpoint
      exact List.find?_eq_none.1 hfind e he (pointsAt_iff.2 hpoint)
    | some e =>
      obtain ⟨hpoint, before, after, hsplit, hbefore⟩ := List.find?_eq_some_iff_append.1 hfind
      refine .mapped hsplit (pointsAt_iff.1 hpoint) fun earlier hearlier hpoints => ?_
      have hnot := hbefore earlier hearlier
      rw [pointsAt_iff.2 hpoints] at hnot
      cases hnot

theorem FirstNamed.unique (h : FirstNamed d t reference names)
    (h' : FirstNamed d t reference names') : names = names' := by
  induction h with
  | here hid hnames =>
    cases h' with
    | here hid' hnames' =>
      rw [hid] at hid'
      cases hid'
      rw [hnames] at hnames'
      exact Option.some.inj hnames'
    | along hid' hnone _ _ =>
      rw [hid] at hid'
      cases hid'
      rw [hnames] at hnone
      cases hnone
  | along hid hnone href _ ih =>
    cases h' with
    | here hid' hnames' =>
      rw [hid] at hid'
      cases hid'
      rw [hnone] at hnames'
      cases hnames'
    | along hid' _ href' hrest =>
      rw [hid] at hid'
      cases hid'
      rw [href] at href'
      cases href'
      exact ih hrest

theorem FirstNamed.of_names (hsame : ∀ id, t'.names? id = t.names? id)
    (h : FirstNamed d t' reference names) : FirstNamed d t reference names := by
  induction h with
  | here hid hnames => exact .here hid (by rw [← hsame, hnames])
  | along hid hnone href _ ih => exact .along hid (by rw [← hsame, hnone]) href ih

theorem Means.unique {v v' : SealedVariant} (h : Means d t u number member v)
    (h' : Means d t u number member v') : v = v' := by
  cases h with
  | referenced href hnames hdeclared htag =>
    cases h' with
    | referenced href' hnames' hdeclared' htag' =>
      rw [href] at href'
      cases href'
      rw [hdeclared] at hdeclared'
      cases hdeclared'
      rw [hnames.unique hnames', tagOf_iff.1 htag, tagOf_iff.1 htag']
    | inline hnone =>
      rw [href] at hnone
      cases hnone
  | inline hnone =>
    cases h' with
    | referenced href _ _ _ =>
      rw [hnone] at href
      cases href
    | inline _ => rfl

theorem firstNamed_of_links {links : List Document.Link} {first : String} {seen : List Nat}
    (h : d.linksFrom first location seen reference = .ok links)
    (hnames : links.findSome? (fun link => t.names? link.id) = some names) :
    FirstNamed d t reference names := by
  fun_induction Document.linksFrom d first location seen reference generalizing links with
  | case1 => cases h
  | case2 => cases h
  | case3 seen current id found fresh href =>
    cases h
    simp only [List.findSome?_cons] at hnames
    cases hid : t.names? id with
    | none => simp [hid] at hnames
    | some named =>
      simp only [hid, Option.some.injEq] at hnames
      subst hnames
      exact .here found hid
  | case4 seen current id found fresh next href ih =>
    cases hrest : d.linksFrom first location (id :: seen) next with
    | error e =>
      rw [hrest] at h
      cases h
    | ok rest =>
      rw [hrest] at h
      cases h
      simp only [List.findSome?_cons] at hnames
      cases hid : t.names? id with
      | none =>
        rw [hid] at hnames
        exact .along found hid href (ih hrest hnames)
      | some named =>
        simp only [hid, Option.some.injEq] at hnames
        subst hnames
        exact .here found hid

theorem linksFrom_tagless (first : String) (seen : List Nat) :
    Meets (d.linksFrom first location seen reference) (fun _ => True) ConversionError.Tagless := by
  fun_induction Document.linksFrom d first location seen reference with
  | case1 => trivial
  | case2 => trivial
  | case3 => trivial
  | case4 seen current id found fresh next href ih => exact Meets.map ih

theorem namedReference_first : Meets (t.namedReference d reference location)
    (FirstNamed d t reference) ConversionError.Tagless := by
  unfold ModelTree.namedReference
  apply (linksFrom_tagless reference []).bind
  intro links hlinks _
  split
  · next names hnames => exact firstNamed_of_links hlinks hnames
  · trivial

theorem moveUnder_tagless (index p : Nat) :
    Meets (t.moveUnder index p) (fun _ => True) ConversionError.Tagless := by
  unfold ModelTree.moveUnder
  simp only
  split
  · trivial
  · split <;> trivial

theorem nestVariant_tagless (variant : TypeNames) (union : Nat) :
    Meets (t.nestVariant variant union) (fun _ => True) ConversionError.Tagless := by
  unfold ModelTree.nestVariant
  split
  · trivial
  · split
    · trivial
    · exact moveUnder_tagless _ _

end ApiModel
