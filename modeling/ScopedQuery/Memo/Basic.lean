import ScopedQuery.Sql.Dialect

set_option autoImplicit false

/-!
A bounded memory of sanitized texts. Each entry carries the time of its last use, and when the
memory is full the entry that has not been used for the longest time makes room.
-/

namespace ScopedQuery

structure Memo.Key where
  text : String
  dialect : Sql.Dialect
  deriving DecidableEq, Repr

structure Memo.Slot where
  key : Memo.Key
  value : String
  lastUse : Nat

structure Memo where
  slots : List Memo.Slot
  capacity : Nat
  clock : Nat
  hits : Nat
  misses : Nat
  evictions : Nat

namespace Memo

def defaultCapacity : Nat := 1024

/-- The empty memory for the given number of entries; it never has room for none. -/
def empty (capacity : Nat) : Memo := ⟨[], max capacity 1, 0, 0, 0, 0⟩

def size (m : Memo) : Nat := m.slots.length

def slot? (m : Memo) (k : Key) : Option Slot := m.slots.find? fun s => s.key == k

/-- Looks a value up. A look-up counts as a use of the entry it finds. -/
def get (m : Memo) (k : Key) : Option String × Memo :=
  match m.slot? k with
  | some found =>
    (some found.value,
      { m with
        slots := m.slots.map fun s => if s.key == k then { s with lastUse := m.clock } else s
        clock := m.clock + 1
        hits := m.hits + 1 })
  | none => (none, { m with clock := m.clock + 1, misses := m.misses + 1 })

def oldest? : List Slot → Option Slot
  | [] => none
  | s :: rest =>
    match oldest? rest with
    | some t => if t.lastUse < s.lastUse then some t else some s
    | none => some s

def evict (m : Memo) : Memo :=
  match oldest? m.slots with
  | some old =>
    { m with
      slots := m.slots.filter fun s => s.key != old.key
      evictions := m.evictions + 1 }
  | none => m

/-- Remembers a value. A key that is already there gets the new value; a new one may need room. -/
def insert (m : Memo) (k : Key) (value : String) : Memo :=
  let roomy := if (m.slot? k).isNone && m.capacity ≤ m.size then m.evict else m
  { roomy with
    slots := ⟨k, value, m.clock⟩ :: roomy.slots.filter fun s => s.key != k
    clock := m.clock + 1 }

def clear (m : Memo) : Memo := { m with slots := [] }

def hitRate (m : Memo) : Float :=
  if m.hits + m.misses == 0 then 0
  else Float.ofNat m.hits / Float.ofNat (m.hits + m.misses)

end Memo

end ScopedQuery
