import Semlift.Text.Byte
import Semlift.Value

/-!
Named values and the objects that are alive. The fields of an object are in the order in which they
were first set, the local variables of a frame in the order of their names, the objects in the order
of their making. Serial numbers are never used again, also not after an object is erased.
-/

namespace Semlift.Store

abbrev Fields := List (String × Value)

namespace Fields

def get? (fs : Fields) (name : String) : Option Value :=
  (List.find? (fun e => e.1 == name) fs).map (·.2)

/-- Overwrites a field in its place, or adds it at the end. -/
def set (name : String) (v : Value) : Fields → Fields
  | [] => [(name, v)]
  | (n, old) :: more => if n = name then (n, v) :: more else (n, old) :: set name v more

def ofList (es : List (String × Value)) : Fields := es.foldl (fun fs e => fs.set e.1 e.2) []

/-- Overwrites a variable, or puts it into its place among the sorted names. -/
def assign (fs : Fields) (name : String) (v : Value) : Fields :=
  match fs with
  | [] => [(name, v)]
  | (n, old) :: more =>
    if name < n then (name, v) :: (n, old) :: more
    else if name = n then (n, v) :: more
    else (n, old) :: assign more name v

theorem get?_cons (e : String × Value) (fs : Fields) (n : String) :
    get? (e :: fs) n = if e.1 = n then some e.2 else get? fs n := by
  by_cases h : e.1 = n <;> simp [get?, h]

theorem get?_set (fs : Fields) (name n : String) (v : Value) :
    (fs.set name v).get? n = if name = n then some v else fs.get? n := by
  induction fs with
  | nil => simp only [set, get?_cons]
  | cons e more ih =>
    obtain ⟨m, old⟩ := e
    by_cases hm : m = name
    · subst hm
      by_cases hn : m = n <;> simp [set, get?_cons, hn]
    · by_cases hn : m = n
      · subst hn; simp [set, get?_cons, hm, Ne.symm hm]
      · simp [set, get?_cons, hm, hn, ih]

/-- The objects among the values. -/
def refs (fs : Fields) : List ObjectRef := fs.filterMap (·.2.object?)

end Fields

/-! ### Objects -/

structure Object where
  ref : ObjectRef
  fields : Fields
  deriving DecidableEq

structure Heap where
  objects : List Object
  next : Nat
  deriving DecidableEq

namespace Heap

def empty : Heap := ⟨[], 0⟩

instance : Inhabited Heap := ⟨empty⟩

def size (h : Heap) : Nat := h.objects.length

def allocate (h : Heap) (className : String) (fields : Fields) : ObjectRef × Heap :=
  let ref : ObjectRef := ⟨h.next, className⟩
  (ref, ⟨h.objects ++ [⟨ref, fields⟩], h.next + 1⟩)

def find? (h : Heap) (serial : Nat) : Option Object :=
  h.objects.find? (·.ref.serial == serial)

def fields? (h : Heap) (r : ObjectRef) : Option Fields := (h.find? r.serial).map (·.fields)

/-- The object whose printed identity this is: the one with the serial number in it. Another
spelling of the number, as with zeros in front, is no identity. -/
def named? (h : Heap) (name : String) : Option ObjectRef := do
  let o ← h.find? (← Text.wordValue? (← Text.afterPrefix? "obj".toList name.toList))
  if o.ref.name = name then some o.ref else none

/-- Sets a field of an object, if the object is alive. -/
def write (h : Heap) (r : ObjectRef) (field : String) (v : Value) : Heap :=
  { h with objects := h.objects.map fun o =>
      if o.ref.serial = r.serial then { o with fields := o.fields.set field v } else o }

def erase (h : Heap) (r : ObjectRef) : Heap :=
  { h with objects := h.objects.filter (·.ref.serial != r.serial) }

/-- The serial numbers of the objects, each with those that its fields hold. -/
def edges (h : Heap) : List (Nat × Nat) :=
  h.objects.flatMap fun o => o.fields.refs.map fun r => (o.ref.serial, r.serial)

end Heap

end Semlift.Store
