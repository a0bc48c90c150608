import Pinfall.Value.Basic

/-!
# Keys

Only what cannot change may serve as a key to look something up.  Lists, objects
and frames can, and are refused.
-/

namespace Pinfall

/-- The kinds of things that cannot be keys. -/
inductive NotAKey where
  | list
  | object
  | frame
  deriving DecidableEq

namespace NotAKey

/-- The wording of a refusal. -/
def message : NotAKey → String
  | .list => "unhashable type: 'list'"
  | .object => "unhashable type: 'dict'"
  | .frame => "unhashable type: 'Frame'"

end NotAKey

/-- Why a value cannot be a key, if it cannot. -/
def Value.notAKey? : Value → Option NotAKey
  | .list _ => some .list
  | .object _ => some .object
  | _ => none

end Pinfall
