import Deeplink.Text.Quoted

/-!
# What is wrong with a template or its arguments

- `Template.Fault`: the causes, each with its message and its class.
-/

namespace Deeplink.Template

/-- The two sizes of a conversion. -/
inductive SizePart where
  | width
  | precision
  deriving DecidableEq

namespace SizePart

def name : SizePart → Text
  | .width => "width"
  | .precision => "precision"

/-- The type of machine integers that hold a size. -/
def integerType : SizePart → Text
  | .width => "ssize_t"
  | .precision => "int"

/-- The first size that is too big. The sizes below it, and as many negative ones, are those that
an argument can give. -/
def limit : SizePart → Nat
  | .width => Nat.pow 2 63
  | .precision => Nat.pow 2 31

end SizePart

inductive Fault where
  | unused
  | exhausted
  | needsMembers
  | incomplete
  | incompleteKey
  | missingKey (key : Text)
  | needsIndex
  | unsupported (letter : CodePoint) (index : Nat)
  | needsReal (letter : Char) (kind : Text)
  | needsInteger (letter : Char) (kind : Text)
  | needsFloat (kind : Text)
  | needsCharacter
  | noCharacter
  | needsSize
  | sizeTooBig (part : SizePart)
  | sizeOutOfRange (part : SizePart)
  | precisionTooLarge
  | noMemory
  | infinite
  | undefined
  | tooLarge
  deriving DecidableEq

namespace Fault

def message : Fault → Text
  | .unused => "not all arguments converted during string formatting"
  | .exhausted => "not enough arguments for format string"
  | .needsMembers => "format requires a mapping"
  | .incomplete => "incomplete format"
  | .incompleteKey => "incomplete format key"
  | .missingKey key => Text.quoted key
  | .needsIndex => "list indices must be integers or slices, not str"
  | .unsupported letter index =>
    "unsupported format character '"
      ++ [if 31 ≤ letter.toNat ∧ letter.toNat ≤ 126 then letter else .char '?']
      ++ "' (0x" ++ Text.hex 0 letter.toNat ++ ") at index " ++ Text.ofNat index
  | .needsReal letter kind =>
    .char '%' :: .char letter :: " format: a real number is required, not " ++ kind
  | .needsInteger letter kind =>
    .char '%' :: .char letter :: " format: an integer is required, not " ++ kind
  | .needsFloat kind => "must be real number, not " ++ kind
  | .needsCharacter => "%c requires int or char"
  | .noCharacter => "%c arg not in range(0x110000)"
  | .needsSize => "* wants int"
  | .sizeTooBig part => part.name ++ " too big"
  | .sizeOutOfRange part => "Python int too large to convert to C " ++ part.integerType
  | .precisionTooLarge => "precision too large"
  | .noMemory => ""
  | .infinite => "cannot convert float infinity to integer"
  | .undefined => "cannot convert float NaN to integer"
  | .tooLarge => "int too large to convert to float"

/-- The class of a fault. -/
def className : Fault → Text
  | .incomplete | .incompleteKey | .unsupported _ _ | .sizeTooBig _ | .undefined => "ValueError"
  | .missingKey _ => "KeyError"
  | .noCharacter | .sizeOutOfRange _ | .precisionTooLarge | .infinite | .tooLarge =>
    "OverflowError"
  | .noMemory => "MemoryError"
  | _ => "TypeError"

end Fault

end Deeplink.Template
