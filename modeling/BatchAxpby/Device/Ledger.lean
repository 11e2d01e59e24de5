import BatchAxpby.Error

/-! # Memory ledger

The ledger keeps the bytes that live reservations hold, and refuses what does not fit into
the rest of the capacity. Copies of a ledger share its bytes in use and its reservations.
-/

namespace BatchAxpby

structure Ledger where
  capacity : Nat
  inUse : Nat := 0
  deriving DecidableEq, Repr

namespace Ledger

def free (l : Ledger) : Nat := l.capacity - l.inUse

def reserve (l : Ledger) (bytes : Nat) : Outcome Ledger := do
  if l.free < bytes then throw (.refused (.deviceExhausted bytes l.free l.capacity))
  return { l with inUse := ← Word.add l.inUse bytes }

def release (l : Ledger) (bytes : Nat) : Ledger := { l with inUse := l.inUse - bytes }

end Ledger

/-- A ledger together with its reservations in the order they were made. A reservation that
was given back leaves an empty place. -/
structure Account where
  ledger : Ledger
  held : Array (Option Nat) := #[]
  deriving DecidableEq, Repr

namespace Account

/-- Reserves bytes; the handle of a reservation is its place. -/
def reserve (a : Account) (bytes : Nat) : Outcome (Nat × Account) := do
  let ledger ← a.ledger.reserve bytes
  return (a.held.size, ⟨ledger, a.held.push (some bytes)⟩)

def release? (a : Account) (handle : Nat) : Option Account :=
  match a.held[handle]? with
  | some (some bytes) => some ⟨a.ledger.release bytes, a.held.setIfInBounds handle none⟩
  | _ => none

/-- A ledger and its copies, each with the capacity that it was made with. -/
structure Shared where
  capacities : Array Nat
  inUse : Nat := 0
  held : Array (Option Nat) := #[]
  deriving DecidableEq, Repr

inductive Request where
  | copy (ledger : Nat)
  | reserve (ledger bytes : Nat)
  | release (handle : Nat)
  deriving DecidableEq, Repr

namespace Shared

def start (capacity : Nat) : Shared := { capacities := #[capacity] }

/-- The account as a ledger of this capacity has it. -/
def account (s : Shared) (capacity : Nat) : Account := ⟨⟨capacity, s.inUse⟩, s.held⟩

/-- What all ledgers share, from the account of one of them. -/
def withAccount (s : Shared) (a : Account) : Shared :=
  { s with inUse := a.ledger.inUse, held := a.held }

/-- The ledgers after a request, which has to name a ledger or a reservation that there is. Bytes
that are refused leave them as they are. -/
def step? (s : Shared) : Request → Option Shared
  | .copy ledger => s.capacities[ledger]?.map fun c => { s with capacities := s.capacities.push c }
  | .reserve ledger bytes => s.capacities[ledger]?.map fun c =>
    match (s.account c).reserve bytes with
    | .ok (_, a) => s.withAccount a
    | .error _ => s
  -- Giving bytes back reads no capacity.
  | .release handle => ((s.account 0).release? handle).map s.withAccount

def run? (s : Shared) : List Request → Option Shared
  | [] => some s
  | request :: rest => (s.step? request).bind (·.run? rest)

end Shared

end Account

end BatchAxpby
