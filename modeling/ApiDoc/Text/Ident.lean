import ApiDoc.Text.Case
import ApiDoc.Text.IdentTable

/-!
# Identifiers
-/

set_option autoImplicit false

namespace ApiDoc.Text

def isIdentStart (c : Char) : Bool :=
  if isAscii c then c.isAlpha || c = '_' else inRanges c.toNat xidStartRanges

def isIdentContinue (c : Char) : Bool :=
  if isAscii c then c.isAlphanum || c = '_' else inRanges c.toNat xidContinueRanges

end ApiDoc.Text
