import ApiModel.Text.CharClass

namespace ApiModel

inductive HttpMethod where
  | get
  | put
  | post
  | delete
  | options
  | head
  | patch
  | trace
  deriving DecidableEq, Repr

namespace HttpMethod

def all : List HttpMethod := [.get, .put, .post, .delete, .options, .head, .patch, .trace]

def key : HttpMethod → String
  | .get => "get"
  | .put => "put"
  | .post => "post"
  | .delete => "delete"
  | .options => "options"
  | .head => "head"
  | .patch => "patch"
  | .trace => "trace"

def verb (m : HttpMethod) : String := String.ofList (m.key.toList.map Text.asciiUpper)

end HttpMethod

inductive ParameterLocation where
  | cookie
  | header
  | path
  | query
  deriving DecidableEq, Repr

namespace ParameterLocation

def all : List ParameterLocation := [.cookie, .header, .path, .query]

def ofString? : String → Option ParameterLocation
  | "cookie" => some .cookie
  | "header" => some .header
  | "path" => some .path
  | "query" => some .query
  | _ => none

def name : ParameterLocation → String
  | .cookie => "Cookie"
  | .header => "Header"
  | .path => "Path"
  | .query => "Query"

def priority : ParameterLocation → Nat
  | .cookie => 0
  | .header => 1
  | .path => 2
  | .query => 3

end ParameterLocation

end ApiModel
