import ApiModel.Decode

namespace ApiModel

structure Contact where
  name : Option String
  url : Option String
  email : Option String
  deriving DecidableEq, Repr

structure License where
  name : Option String
  url : Option String
  deriving DecidableEq, Repr

structure Info where
  title : Option String
  description : Option String
  version : Option String
  contact : Option Contact
  license : Option License
  deriving DecidableEq, Repr

def Contact.empty : Contact := ⟨none, none, none⟩

def License.empty : License := ⟨none, none⟩

def Info.empty : Info := ⟨none, none, none, none, none⟩

def Contact.decode : Decoder Contact :=
  .record "ShimContact"
    [ .optional "name" .string fun v c => { c with name := v },
      .optional "url" .string fun v c => { c with url := v },
      .optional "email" .string fun v c => { c with email := v } ]
    .empty

def License.decode : Decoder License :=
  .record "ShimLicense"
    [ .optional "name" .string fun v l => { l with name := v },
      .optional "url" .string fun v l => { l with url := v } ]
    .empty

def Info.decode : Decoder Info :=
  .record "ShimInfo"
    [ .optional "title" .string fun v i => { i with title := v },
      .optional "description" .string fun v i => { i with description := v },
      .optional "version" .string fun v i => { i with version := v },
      .optional "contact" Contact.decode fun v i => { i with contact := v },
      .optional "license" License.decode fun v i => { i with license := v } ]
    .empty

end ApiModel
