import ApiModel.Decode

namespace ApiModel

structure ServerVariable where
  allowed : Option (List String)
  fallback : Option String
  deriving DecidableEq, Repr

structure Server where
  url : String
  description : Option String
  placeholders : OrderedMap String ServerVariable
  deriving DecidableEq, Repr

def ServerVariable.empty : ServerVariable := ⟨none, none⟩

def Server.empty : Server := ⟨"", none, []⟩

def ServerVariable.value? (v : ServerVariable) : Option String :=
  v.fallback.or (v.allowed.bind List.head?)

def ServerVariable.decode : Decoder ServerVariable :=
  .record "ShimServerVariable"
    [ .optional "enum" (.list .string) fun x v => { v with allowed := x },
      .optional "default" .string fun x v => { v with fallback := x } ]
    .empty

def Server.decode : Decoder Server :=
  .record "ShimServer"
    [ .mandatory "url" .string fun v s => { s with url := v },
      .optional "description" .string fun v s => { s with description := v },
      .lenient "variables" (.map ServerVariable.decode) fun v s => { s with placeholders := v } ]
    .empty

end ApiModel
