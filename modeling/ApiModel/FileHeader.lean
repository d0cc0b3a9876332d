import ApiModel.Error
import ApiModel.Object.Info
import ApiModel.Timestamp

namespace ApiModel.FileHeader

def note : String := "NOTE: This file is auto generated. Do not edit the file manually!"

def generator : String := "spec-ir (version 0.1.0)"

def contactLines (c : Contact) : List String :=
  ["", "Contact"] ++ (c.name.map ("  " ++ ·)).toList ++ (c.email.map ("  Mail: " ++ ·)).toList ++
    (c.url.map ("  URL: " ++ ·)).toList

def licenseLines (l : License) : List String :=
  ["", "Spec License"] ++ (l.name.map ("  " ++ ·)).toList ++ (l.url.map ("  " ++ ·)).toList

def lines (info : Info) (title version : String) (moment : Timestamp) : List String :=
  [note, "", title] ++ (info.description.map (Text.splitString '\n')).getD [] ++
    ["Version " ++ version] ++ (info.contact.map contactLines).getD [] ++
    (info.license.map licenseLines).getD [] ++ ["", "Generated " ++ moment.toMail, generator]

def render (info : Info) (title version : String) (moment : Timestamp) : String :=
  "\n".intercalate (lines info title version moment) ++ "\n"

def generate (info : Info) (title version : String) (moment : Timestamp) :
    Except ConversionError String :=
  if moment.HasMailDate then .ok (render info title version moment)
  else .error (.broken (.unwritableYear moment.clock.year))

end ApiModel.FileHeader
