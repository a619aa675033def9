/-!
# Instances of the core library

Other libraries bring instances of their own for powers, for the zero that sums start with, and for
the equality of bytes. Definitions that open this namespace take those of the core library, so that
they are the same whatever else is imported. The instance of a power is chosen by the type of its
exponent, so a literal exponent has its type written out.
-/

namespace AuditTrail.CoreInstances

attribute [scoped instance (2000)] instPowNat Zero.ofOfNat0 ByteArray.instDecidableEq

end AuditTrail.CoreInstances
