import Semlift.Store.Heap

/-!
The objects that stand for simulation units, with the samples taken of their ports. They are kept in
the order of their serial numbers.
-/

namespace Semlift.Store

structure Sample where
  port : String
  value : Value
  time : Number.Double
  deriving DecidableEq

structure SimUnit where
  ref : ObjectRef
  role : String
  samples : List Sample
  deriving DecidableEq

abbrev Simulation := List SimUnit

namespace Simulation

def find? (s : Simulation) (serial : Nat) : Option SimUnit :=
  List.find? (fun u => u.ref.serial == serial) s

/-- Gives an object a role; the samples of a unit with its serial number stay. -/
def register (r : ObjectRef) (role : String) : Simulation → Simulation
  | [] => [⟨r, role, []⟩]
  | u :: more =>
    if r.serial < u.ref.serial then ⟨r, role, []⟩ :: u :: more
    else if r.serial = u.ref.serial then ⟨r, role, u.samples⟩ :: more
    else u :: register r role more

/-- Adds a sample to a unit, if it is registered. -/
def addSample (s : Simulation) (r : ObjectRef) (sample : Sample) : Simulation :=
  s.map fun u =>
    if u.ref.serial = r.serial then { u with samples := u.samples ++ [sample] } else u

def erase (s : Simulation) (r : ObjectRef) : Simulation :=
  s.filter (·.ref.serial != r.serial)

end Simulation

end Semlift.Store
