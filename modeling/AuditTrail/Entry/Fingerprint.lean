import AuditTrail.Digest.Sha256
import AuditTrail.Entry.Basic
import AuditTrail.Text.Hex
/-!
# Fingerprints

The hash of an entry covers exactly its id, time, event type, action and details. They are written
as a JSON array behind the name of the format, with the members of every object sorted, so that
equal facts have equal texts and different facts different ones.
-/

namespace AuditTrail

structure Facts where
  id : String
  time : Instant
  eventType : String
  action : String
  details : EventDetails

namespace Facts

def formatName : String := "audit-entry-v1"

/-- The facts as a JSON array. -/
def toJson (f : Facts) : Json := .array
  [.string formatName, .string f.id, .string f.time.canonical, .string f.eventType,
   .string f.action, f.details.toJson.normalize]

/-- The canonical text of the facts. -/
def canonical (f : Facts) : String := f.toJson.render

/-- The bytes that are digested. -/
def bytes (f : Facts) : List UInt8 := f.canonical.toUTF8.toList

/-- The digest of the facts in hexadecimal digits. -/
def fingerprint (f : Facts) : String := Text.Hex.encode (sha256 f.bytes).bytes

end Facts

namespace Entry

/-- The facts of an entry that its fingerprint covers. -/
def facts (e : Entry) : Facts := ⟨e.id, e.time, e.eventType, e.action, e.details⟩

/-- The hash that the facts of an entry ask for. -/
def fingerprint (e : Entry) : String := e.facts.fingerprint

/-- The stored hash is the one that the facts ask for. -/
def isIntact (e : Entry) : Bool := e.hash != "" && e.fingerprint == e.hash

end Entry

end AuditTrail
