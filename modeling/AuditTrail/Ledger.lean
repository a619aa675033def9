import AuditTrail.Entry.Draft
import AuditTrail.Entry.Fingerprint
import AuditTrail.Signer
/-!
# The ledger

Entries in the order in which they were recorded. A new entry gets the next number, names the hash
of the one before it, and is stamped with the current time, or with the time of the entry before if
the clock has gone back. What is recorded never changes.
-/

namespace AuditTrail

structure Ledger where
  /-- The entries, oldest first. -/
  entries : List Entry
  /-- The hash that the next entry has to name. -/
  headHash : String

/-- An entry with its link, hash and signature. -/
def Entry.seal (signer : Signer) (previousHash : String) (draft : Entry) : Entry :=
  let hash := draft.fingerprint
  { draft with
    previousHash := previousHash
    hash := hash
    signature := (signer.sign hash draft.time).text }

namespace Ledger

/-- The ledger without entries. -/
def empty : Ledger := ⟨[], ""⟩

/-- The time that an entry recorded now is stamped with. -/
def stamp (ledger : Ledger) (now : Instant) : Instant :=
  match ledger.entries.getLast? with
  | some last => Instant.later now last.time
  | none => now

/-- The number of the next entry. -/
def nextSequence (ledger : Ledger) : UInt64 := UInt64.ofNat (ledger.entries.length + 1)

/-- The entry that an event becomes when it is recorded now. -/
def entryOf (ledger : Ledger) (config : Config) (signer : Signer) (now : Instant) (id : String)
    (event : Event) : Entry :=
  (Entry.draft config id (ledger.stamp now) ledger.nextSequence event).seal signer ledger.headHash

/-- The ledger with another entry at its end. -/
def push (ledger : Ledger) (e : Entry) : Ledger := ⟨ledger.entries ++ [e], e.hash⟩

/-- The entries of a list that are stamped from `start` on and before `finish`. -/
def window (start finish : Instant) (entries : List Entry) : List Entry :=
  entries.filter fun e => decide (start ≤ e.time) && decide (e.time < finish)

/-- The entries that are stamped from `start` on and before `finish`. -/
def snapshot (ledger : Ledger) (start finish : Instant) : List Entry :=
  window start finish ledger.entries

end Ledger

end AuditTrail
