import LayeredConfig.Lookup.Filter
import LayeredConfig.Text.Ascii
import LayeredConfig.Text.Blank

/-!
# Masking

The filter that keeps secrets from being shown: the value of every key that contains one of some
fragments, in letters of either case, is replaced by a mask. Fragments lose the blanks around them,
and one that is blank altogether is none.
-/

set_option autoImplicit false

namespace LayeredConfig

/-- The fragments of sensitive keys, in small letters, and the text shown for their values. -/
structure Masking where
  fragments : List String
  mask : String
  deriving DecidableEq

namespace Masking

def defaultMask : String := "*****"

/-- A mask over the keys that contain one of the given fragments. -/
def ofFragments (fragments : List String) : Masking where
  fragments := (fragments.map fun f => Text.lower (Text.trim f)).filter fun f => !f.isEmpty
  mask := defaultMask

/-- The mask over keys that speak of a password or a secret. -/
def standard : Masking := ofFragments ["password", "secret"]

def withMask (m : Masking) (mask : String) : Masking := { m with mask := mask }

def isSensitive (m : Masking) (key : String) : Bool :=
  m.fragments.any fun fragment => Text.contains fragment (Text.lower key)

/-- The value as it may be shown. -/
def cover (m : Masking) (v : PropertyValue) (ctx : FilterContext) : PropertyValue :=
  if m.isSensitive ctx.key then v.withText m.mask else v

/-- The filter that masks; it vetoes nothing and never fails. -/
def filter (m : Masking) : Filter := ⟨"masking", fun v ctx => .ok (some (m.cover v ctx))⟩

end Masking

end LayeredConfig
