import ApiModel.Text.Words

namespace ApiModel.Naming

open Text (isAsciiDigit upperCamel lowerCamel)

def guardDigit : List Char → List Char
  | [] => []
  | c :: rest => if isAsciiDigit c then '_' :: c :: rest else c :: rest

def typeName (raw : String) : String := String.ofList (guardDigit (upperCamel raw.toList))

def fieldName (raw : String) : String := String.ofList (guardDigit (lowerCamel raw.toList))

def functionName (raw : String) : String := fieldName raw

end ApiModel.Naming
