import ApiModel.Text.CharClass

namespace ApiModel.Text

inductive Letter where
  | neither
  | small
  | capital
  deriving DecidableEq, Repr

def Letter.of (c : Char) : Letter :=
  if isLowercase c then .small else if isUppercase c then .capital else .neither

def alphanumericPieces : List Char → List (List Char)
  | [] => []
  | c :: rest =>
      if isAlphanumeric c then
        match rest, alphanumericPieces rest with
        | d :: _, piece :: pieces =>
            if isAlphanumeric d then (c :: piece) :: pieces else [c] :: piece :: pieces
        | _, pieces => [c] :: pieces
      else alphanumericPieces rest

/-- Cuts a piece into words; `word` is the open word, reversed, and `mode` the case of the last
cased character in it. -/
def wordsFrom (mode : Letter) (word : List Char) : List Char → List (List Char)
  | [] => if word.isEmpty then [] else [word.reverse]
  | [c] => [(c :: word).reverse]
  | c :: next :: rest =>
      let turned := match Letter.of c with
        | .neither => mode
        | cased => cased
      if turned = .small ∧ isUppercase next then
        (c :: word).reverse :: wordsFrom .neither [] (next :: rest)
      else if mode = .capital ∧ isUppercase c ∧ isLowercase next then
        word.reverse :: wordsFrom .neither [c] (next :: rest)
      else wordsFrom turned (c :: word) (next :: rest)

def words (s : List Char) : List (List Char) :=
  (alphanumericPieces s).flatMap (wordsFrom .neither [])

def lowerWord : List Char → List Char
  | [] => []
  | [c] => if c = 'Σ' then ['ς'] else lowerForm c
  | c :: rest => lowerForm c ++ lowerWord rest

def capitalWord : List Char → List Char
  | [] => []
  | c :: rest => upperForm c ++ lowerWord rest

def upperCamel (s : List Char) : List Char := (words s).flatMap capitalWord

def lowerCamel (s : List Char) : List Char :=
  match words s with
  | [] => []
  | first :: rest => lowerWord first ++ rest.flatMap capitalWord

end ApiModel.Text
