import ApiModel.Document.Basic
import ApiModel.Model.Basic

namespace ApiModel

namespace MediaType

def json : String := "application/json"

def multipart : String := "multipart/form-data"

def urlEncoded : String := "application/x-www-form-urlencoded"

def essence (type : String) : String :=
  let name := Text.trimBlank (String.ofList (type.toList.takeWhile (· != ';')))
  String.ofList (name.toList.map Text.asciiLower)

def isJson (type : String) : Bool :=
  let name := essence type
  name == json || (Text.afterStart? "nosj+".toList name.toList.reverse).isSome

def requestType (type : String) : RequestType :=
  let name := essence type
  if name = multipart then .multipart
  else if name = urlEncoded then .urlEncoded
  else if isJson type then .default
  else .unknown

end MediaType

namespace Content

def find? (content : Content) (name : String) : Option (String × Option Nat) :=
  List.find? (fun entry => MediaType.essence entry.1 == name) content

def preferred? (content : Content) : Option (String × Option Nat) :=
  ([MediaType.json, MediaType.multipart, MediaType.urlEncoded].findSome? content.find?).or
    content.head?

def json? (content : Content) : Option (String × Option Nat) :=
  List.find? (fun entry => MediaType.isJson entry.1) content

end Content

end ApiModel
