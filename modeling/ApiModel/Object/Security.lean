import ApiModel.Decode

namespace ApiModel

structure SecuritySchemeObject where
  kind : String
  name : Option String
  location : Option String
  scheme : Option String
  description : Option String
  deriving DecidableEq, Repr

abbrev SecurityRequirement := OrderedMap String (List String)

def SecuritySchemeObject.empty : SecuritySchemeObject := ⟨"", none, none, none, none⟩

def SecuritySchemeObject.decode : Decoder SecuritySchemeObject :=
  .record "ShimSecurityScheme"
    [ .mandatory "type" .string fun v s => { s with kind := v },
      .optional "name" .string fun v s => { s with name := v },
      .optional "in" .string fun v s => { s with location := v },
      .optional "scheme" .string fun v s => { s with scheme := v },
      .optional "description" .string fun v s => { s with description := v } ]
    .empty

def SecurityRequirement.decode : Decoder SecurityRequirement := .map (.list .string)

end ApiModel
