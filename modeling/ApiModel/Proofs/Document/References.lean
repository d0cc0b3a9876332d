import ApiModel.Document.Reference
import ApiModel.Proofs.Document.Keyed
import ApiModel.Proofs.Document.Loaded
import ApiModel.Proofs.Document.Pointers
import ApiModel.Proofs.Text.Octets
/-!
References to shared parts by name. Whatever characters a name has, its reference leads back to it,
since each of the three decodings undoes the escapes of one step and leaves the others alone.
-/

namespace ApiModel

theorem flatMap_pieces {α β γ : Type} {F : List β → List γ} {f : α → List β} {g : α → List γ}
    (hnil : F [] = []) (hpiece : ∀ a rest, F (f a ++ rest) = g a ++ F rest) (s : List α) :
    F (s.flatMap f) = s.flatMap g := by
  induction s with
  | nil => exact hnil
  | cons a s ih => rw [List.flatMap_cons, hpiece, ih, List.flatMap_cons]

section

variable {a b c x : Char}

theorem replacePair_cons (h : x ≠ a) (rest : List Char) :
    replacePair a b c (x :: rest) = x :: replacePair a b c rest := by
  cases rest with
  | nil => rfl
  | cons y rest => rw [replacePair, if_neg fun hpair => h hpair.1]

theorem replacePair_append {piece : List Char} (h : a ∉ piece) (rest : List Char) :
    replacePair a b c (piece ++ rest) = piece ++ replacePair a b c rest := by
  induction piece with
  | nil => rfl
  | cons x piece ih =>
    obtain ⟨hx, hpiece⟩ := not_or.1 (List.mem_cons.not.1 h)
    rw [List.cons_append, replacePair_cons (Ne.symm hx), ih hpiece, List.cons_append]

theorem replacePair_pair (rest : List Char) :
    replacePair a b c (a :: b :: rest) = c :: replacePair a b c rest := by
  rw [replacePair, if_pos ⟨rfl, rfl⟩]

end

def unslashedChar (c : Char) : List Char :=
  if c = '/' then ['/'] else Text.percentEncode (escapeChar c)

def untildedChar (c : Char) : List Char := if c = '/' then ['/'] else Text.percentEncode [c]

theorem percentEncode_escapeChar_tilde : Text.percentEncode (escapeChar '~') = ['~', '0'] := by
  decide

theorem percentEncode_escapeChar_slash : Text.percentEncode (escapeChar '/') = ['~', '1'] := by
  decide

theorem escapeChar_of_ne {c : Char} (htilde : c ≠ '~') (hslash : c ≠ '/') :
    escapeChar c = [c] := by
  rw [escapeChar, if_neg htilde, if_neg hslash]

theorem replacePair_slash (c : Char) (rest : List Char) :
    replacePair '~' '1' '/' (Text.percentEncode (escapeChar c) ++ rest) =
      unslashedChar c ++ replacePair '~' '1' '/' rest := by
  by_cases hslash : c = '/'
  · rw [hslash, percentEncode_escapeChar_slash]
    exact replacePair_pair rest
  · rw [unslashedChar, if_neg hslash]
    by_cases htilde : c = '~'
    · -- The zero keeps an escaped tilde from being read as an escaped slash.
      rw [htilde, percentEncode_escapeChar_tilde]
      change replacePair '~' '1' '/' ('~' :: '0' :: rest) =
        '~' :: '0' :: replacePair '~' '1' '/' rest
      rw [replacePair, if_neg (by decide), replacePair_cons (by decide)]
    · rw [escapeChar_of_ne htilde hslash]
      exact replacePair_append (Text.tilde_not_mem_percentEncode htilde) rest

theorem replacePair_tilde (c : Char) (rest : List Char) :
    replacePair '~' '0' '~' (unslashedChar c ++ rest) =
      untildedChar c ++ replacePair '~' '0' '~' rest := by
  unfold unslashedChar untildedChar
  split
  · exact replacePair_cons (by decide) rest
  · next hslash =>
    by_cases htilde : c = '~'
    · rw [htilde, percentEncode_escapeChar_tilde]
      exact replacePair_pair rest
    · rw [escapeChar_of_ne htilde hslash]
      exact replacePair_append (Text.tilde_not_mem_percentEncode htilde) rest

theorem percentOctets_untildedChar (c : Char) (rest : List Char) :
    Text.percentOctets (untildedChar c ++ rest) =
      String.utf8EncodeChar c ++ Text.percentOctets rest := by
  unfold untildedChar
  split
  · next hslash =>
    rw [hslash]
    exact Text.percentOctets_cons (by decide) rest
  · rw [Text.percentOctets_percentEncode, List.flatMap_singleton]

theorem decodeSegment_percentEncode (name : String) :
    decodeSegment (Text.percentEncode (escapeSegment name).toList) = name.toList := by
  -- Each of the decodings goes from the escape of one character to that of the next.
  rw [decodeSegment, toList_escapeSegment, Text.percentEncode_flatMap,
    flatMap_pieces rfl replacePair_slash, flatMap_pieces rfl replacePair_tilde,
    Text.percentDecode, flatMap_pieces rfl percentOctets_untildedChar,
    Text.decodeOctets_text]

def Section.reference (s : Section) (name : String) : String :=
  s.root ++ "/" ++ String.ofList (Text.percentEncode (escapeSegment name).toList)

theorem slash_not_mem_key (s : Section) : '/' ∉ s.key.toList := by
  cases s <;> decide

theorem Section.toList_reference (s : Section) (name : String) :
    (s.reference name).toList = ['#', '/'] ++ ("components".toList ++ '/' :: (s.key.toList ++
      '/' :: Text.percentEncode (escapeSegment name).toList)) := by
  simp [reference, root]

theorem componentName?_reference (s : Section) {name : String} (hname : name ≠ "") :
    componentName? s (s.reference name) = some name := by
  have hpieces : Text.splitAt '/' ("components".toList ++ '/' :: (s.key.toList ++
      '/' :: Text.percentEncode (escapeSegment name).toList)) =
        ["components".toList, s.key.toList, Text.percentEncode (escapeSegment name).toList] := by
    rw [Text.splitAt_append (by decide), Text.splitAt_append (slash_not_mem_key s),
      Text.splitAt_of_not_mem (Text.slash_not_mem_percentEncode _)]
  rw [componentName?, s.toList_reference, Text.afterStart?_append]
  have hchars : name.toList ≠ [] := by simpa using hname
  simp only [hpieces, decodeSegment_percentEncode, hchars, ne_eq, not_false_eq_true, and_self,
    if_true, String.ofList_toList]

theorem reference_injective (s : Section) : Function.Injective s.reference := by
  intro name other h
  have hlist := congrArg String.toList h
  rw [s.toList_reference, s.toList_reference] at hlist
  simp only [List.append_cancel_left_eq, List.cons.injEq, true_and] at hlist
  have hdecoded := congrArg decodeSegment hlist
  rw [decodeSegment_percentEncode, decodeSegment_percentEncode] at hdecoded
  exact String.toList_inj.1 hdecoded

namespace Document

theorem resolve?_reference (d : Document) {name : String} (hname : name ≠ "") :
    d.resolve? (Section.schemas.reference name) = d.schemas.get? name := by
  rw [resolve?, schemaName?, componentName?_reference .schemas hname]
  rfl

theorem reference_leads_back {name : String} (hname : name ≠ "") :
    componentName? .schemas (Section.schemas.reference name) = some name ∧
    (∀ text o d complaints, load text o = .ok (d, complaints) →
      (∀ id, d.resolve? (Section.schemas.reference name) = some id ↔ (name, id) ∈ d.schemas) ∧
      (d.resolve? (Section.schemas.reference name) = none ↔ name ∉ d.schemas.keys) ∧
      ∀ id, (name, id) ∈ d.schemas → d.arena.IsRoot id ∧
        (d.node id).location = Section.schemas.location name) ∧
    ∀ other, other ≠ name → Section.schemas.reference other ≠ Section.schemas.reference name := by
  refine ⟨componentName?_reference .schemas hname, fun text o d complaints hload => ?_,
    fun other hother hsame => hother (reference_injective .schemas hsame)⟩
  rw [d.resolve?_reference hname]
  refine ⟨fun id => ?_, OrderedMap.get?_eq_none_iff, fun id hmem => ⟨?_, ?_⟩⟩
  · exact OrderedMap.get?_eq_some_iff (keyed_of_load hload).schemas
  · exact (rooted_of_load hload).schemas _ hmem
  · exact location_of_load hload hmem

def entwined : String :=
  "\x7bopenapi: '3.1', info: \x7b\x7d, paths: \x7b\x7d, components: \x7bschemas: " ++
    "\x7b'~1/%7Eé': \x7btype: string\x7d, '//~é': \x7btype: integer\x7d\x7d\x7d\x7d"

theorem reference_leads_back_entwined :
    Section.schemas.reference "~1/%7Eé" = "#/components/schemas/~01~1%257E%C3%A9" ∧
    ∃ d, load entwined {} = .ok (d, []) ∧ ("~1/%7Eé", 0) ∈ d.schemas ∧
      d.resolve? (Section.schemas.reference "~1/%7Eé") = some 0 := by
  have hcheck : ((load entwined {}).toOption.any fun x => x.2.isEmpty &&
      decide (("~1/%7Eé", 0) ∈ x.1.schemas)) = true := by
    decide +kernel
  obtain ⟨d, hload, hmem⟩ := quiet_of_any hcheck
  have hdeclared := of_decide_eq_true hmem
  have hname : "~1/%7Eé" ≠ "" := by decide
  obtain ⟨-, hleads, -⟩ := reference_leads_back hname
  exact ⟨by decide +kernel, d, hload, hdeclared, ((hleads _ _ _ _ hload).1 0).2 hdeclared⟩

end Document

end ApiModel
