import ApiModel.Object.Server
import ApiModel.Url.Basic

namespace ApiModel

namespace Server

def isVariableChar (c : Char) : Bool := c != '\x7b' && c != '\x7d' && !Text.isBlank c

def variableAt? (s : List Char) : Option (List Char × List Char) :=
  match s with
  | '\x7b' :: s =>
      let name := s.takeWhile isVariableChar
      match s.drop name.length with
      | '\x7d' :: rest => if name.isEmpty then none else some (name, rest)
      | _ => none
  | _ => none

theorem length_of_variableAt? {s name rest : List Char} (h : variableAt? s = some (name, rest)) :
    rest.length < s.length := by
  unfold variableAt? at h
  split at h
  · simp only at h
    split at h
    · next heq =>
      split at h
      · simp at h
      · simp only [Option.some.injEq, Prod.mk.injEq] at h
        have := congrArg List.length heq
        simp only [List.length_drop, List.length_cons, h.2] at this ⊢
        omega
    · simp at h
  · simp at h

def fillIn (value? : List Char → Option (List Char)) : List Char → List Char
  | [] => []
  | c :: s =>
      match _found : variableAt? (c :: s) with
      | some (name, rest) =>
          match value? name with
          | some value => value ++ fillIn value? rest
          | none => '\x7b' :: name ++ '\x7d' :: fillIn value? rest
      | none => c :: fillIn value? s
termination_by s => s.length
decreasing_by
  · exact length_of_variableAt? _found
  · exact length_of_variableAt? _found
  · simp

def valueOf? (server : Server) (name : List Char) : Option (List Char) :=
  ((server.placeholders.get? (String.ofList name)).bind (·.value?)).map String.toList

def address (server : Server) : List Char := fillIn server.valueOf? server.url.toList

def hasAuthorityMark : List Char → Bool
  | [] => false
  | c :: s => (Text.afterStart? "://".toList (c :: s)).isSome || hasAuthorityMark s

def withScheme (s : List Char) : List Char :=
  if (hasAuthorityMark s && Url.isAbsolute s) || s.head? == some '/' then s
  else "http://".toList ++ s

def withSlash (s : List Char) : List Char :=
  if s.getLast? = some '/' then s else s ++ ['/']

def baseUrl (server : Server) : String :=
  String.ofList (withSlash (withScheme server.address))

end Server

def firstBaseUrl (servers : List Server) : Option String := servers.head?.map (·.baseUrl)

end ApiModel
