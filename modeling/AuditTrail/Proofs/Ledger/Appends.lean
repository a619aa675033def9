import AuditTrail.Proofs.Ledger.Chain
/-! # Ledgers made by appends

`ofAppends` is the ledger that a row of appends makes of the empty one, under any configuration and
with any signer. Each append has its own reading of the clock, the name it draws and its event. The
ledger is a chain at these readings, and all of its entries are sealed by the signer. -/

namespace AuditTrail.Ledger
set_option autoImplicit false

/-- What one append is given. -/
structure Append where
  now : Instant
  /-- The name that was drawn for the entry. -/
  id : String
  event : Event

/-- The ledger after some more appends. -/
def appendAll (config : Config) (signer : Signer) (ledger : Ledger) : List Append → Ledger
  | [] => ledger
  | a :: rest =>
    (ledger.push (ledger.entryOf config signer a.now a.id a.event)).appendAll config signer rest

/-- The ledger that some appends make of the empty one. -/
def ofAppends (config : Config) (signer : Signer) (appends : List Append) : Ledger :=
  empty.appendAll config signer appends

variable (config : Config) (signer : Signer)

theorem IsChain.appendAll {ledger : Ledger} {readings : List Instant} (h : ledger.IsChain readings)
    (appends : List Append) :
    (ledger.appendAll config signer appends).IsChain (readings ++ appends.map Append.now) := by
  induction appends generalizing ledger readings with
  | nil =>
    rw [List.map_nil, List.append_nil]
    exact h
  | cons a rest ih =>
    have hrest := ih (h.push config signer a.now a.id a.event)
    rw [List.append_assoc] at hrest
    exact hrest

theorem Recorded.appendAll {ledger : Ledger} (h : ledger.Recorded config signer)
    (appends : List Append) :
    (ledger.appendAll config signer appends).Recorded config signer := by
  induction appends generalizing ledger with
  | nil => exact h
  | cons a rest ih => exact ih (h.push a.now a.id a.event)

theorem isChain_ofAppends (appends : List Append) :
    (ofAppends config signer appends).IsChain (appends.map Append.now) :=
  IsChain.empty.appendAll config signer appends

theorem recorded_ofAppends (appends : List Append) :
    (ofAppends config signer appends).Recorded config signer :=
  (Recorded.empty config signer).appendAll config signer appends

end AuditTrail.Ledger
