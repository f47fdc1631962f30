import RobotControl.Digest.Sha256
import RobotControl.Source.Printer

/-!
Fingerprints.

A program is known by the digest of its canonical text, so the blanks and the letter case of the
text it was read from do not matter.
-/

namespace RobotControl

/-- The SHA-256 of the compact text, in hexadecimal. -/
def Program.fingerprint (p : Program) : String :=
  Digest.hex (Digest.sha256 p.text.toUTF8.toList)

end RobotControl
