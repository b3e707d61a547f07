import Dispatch.Text.Blank

/-! # Finite choices with names

* `Named`: a type with a name for each of its values.
* `Named.ofName?`: the value with exactly this name.
* `Named.ofWord?`: the value with this name, the case of letters aside.
-/

namespace Dispatch
set_option autoImplicit false

class Named (β : Type) where
  all : List β
  name : β → String

namespace Named
variable {β : Type} [Named β]

def ofName? (s : String) : Option β := all.find? fun b => name b == s

def ofWord? (s : String) : Option β := all.find? fun b => Text.sameWord (name b) s

end Named

end Dispatch
