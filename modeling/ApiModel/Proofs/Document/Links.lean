import ApiModel.Document.Reference
import ApiModel.Proofs.Outcome

namespace ApiModel.Document

variable {d : Document}

structure Ends (d : Document) (P : Nat → Prop) (links : List Link) : Prop where
  all : ∀ link ∈ links, P link.id ∧ link.id ∈ d.schemas.values
  last : ∃ link, links.getLast? = some link ∧ (d.node link.id).reference = none

theorem linksFrom_meets {P : Nat → Prop} (first location : String) (seen : List Nat)
    (current : String) (start : ∀ id, d.resolve? current = some id → P id)
    (step : ∀ id text next, P id → (d.node id).reference = some text →
      d.resolve? text = some next → P next) :
    Meets (d.linksFrom first location seen current) (d.Ends P) ConversionError.Expected := by
  fun_induction linksFrom d first location seen current with
  | case1 => trivial
  | case2 => trivial
  | case3 seen current id found fresh href =>
    have hid : P id ∧ id ∈ d.schemas.values := ⟨start id found, resolve?_mem found⟩
    exact ⟨by simpa using hid, ⟨⟨current, id⟩, rfl, href⟩⟩
  | case4 seen current id found fresh next href ih =>
    have hid : P id ∧ id ∈ d.schemas.values := ⟨start id found, resolve?_mem found⟩
    refine Meets.map ((ih fun i hi => step id next i hid.1 href hi).weaken fun links h => ?_)
    obtain ⟨last, hlast, hnone⟩ := h.last
    refine ⟨List.forall_mem_cons.2 ⟨hid, h.all⟩, ⟨last, ?_, hnone⟩⟩
    rw [List.getLast?_cons, hlast]
    rfl

theorem links_meets {P : Nat → Prop} (reference location : String)
    (start : ∀ id, d.resolve? reference = some id → P id)
    (step : ∀ id text next, P id → (d.node id).reference = some text →
      d.resolve? text = some next → P next) :
    Meets (d.links reference location) (d.Ends P) ConversionError.Expected :=
  linksFrom_meets reference location [] reference start step

theorem resolveChain_meets (reference location : String) :
    Meets (d.resolveChain reference location) (fun _ => True) ConversionError.Expected := by
  unfold resolveChain
  have h : Meets (d.links reference location) (d.Ends fun _ => True) ConversionError.Expected :=
    links_meets reference location (fun _ _ => trivial) fun _ _ _ _ _ _ => trivial
  refine h.bind fun links _ _ => ?_
  split <;> trivial

end ApiModel.Document
