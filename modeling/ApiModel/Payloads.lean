import ApiModel.MediaType
import ApiModel.Parameters

namespace ApiModel

/-- A status code in digits of at most sixteen bits; one plus sign may stand before it. -/
def statusCode? (code : String) : Option Nat :=
  let digits := match code.toList with
    | '+' :: digits => digits
    | digits => digits
  if digits.isEmpty || !digits.all Text.isAsciiDigit then none
  else
    let n := digits.foldl (fun n c => 10 * n + (c.toNat - '0'.toNat)) 0
    if n ≤ 65535 then some n else none

def successCode? (code : String) : Option Nat :=
  (statusCode? code).filter fun n => 200 ≤ n && n ≤ 299

def leastSuccess? : OrderedMap String Response → Option (Nat × String × Response)
  | [] => none
  | (code, response) :: rest =>
      match successCode? code, leastSuccess? rest with
      | none, other => other
      | some n, none => some (n, code, response)
      | some n, some other => if n ≤ other.1 then some (n, code, response) else some other

def mainResponse? (responses : OrderedMap String Response) : Option (String × Response) :=
  ((leastSuccess? responses).map (·.2)).or responses.head?

namespace Context

def requestBody (c : Context) (body : Option RequestBody) :
    Except ConversionError (RequestType × Option Payload) := do
  match body with
  | none => return (.default, none)
  | some body =>
      match body.content.preferred? with
      | none => return (.default, none)
      | some (name, schema) =>
          let kind := MediaType.requestType name
          let type ← if kind = .unknown then pure .raw else c.typeOrAny schema
          let nullable := isNullable body.required none
          return (kind, some { type, nullable, description := body.description })

def contentType (c : Context) (content : Content) : Except ConversionError (SimpleType × Bool) := do
  match content.json? with
  | some (_, some schema) => return (← c.typeOf schema, c.elementNullable schema)
  | some (_, none) => return (.any, false)
  | none => return (if content.isEmpty then .unit else .raw, false)

def response (c : Context) (responses : OrderedMap String Response) :
    Except ConversionError Payload := do
  match mainResponse? responses with
  | none => return ⟨.unit, false, none⟩
  | some (_, response) =>
      let (type, nullable) ← c.contentType response.content
      return { type, nullable, description := response.description }

end Context

end ApiModel
