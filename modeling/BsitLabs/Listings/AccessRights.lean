import BsitLabs.InfoRpc.Framing
import BsitLabs.Tcp.ReplyTexts

/-!
# The listing of the access rights

The loop over the entries of an access-control list ends in a `break`, so that only the
first entry is looked at.  The names of its account are stored into arrays of 32 bytes,
whatever their length.  The listing is right exactly if these names fit and no later entry
has an account (`rightsListed_iff`); and the first server must find a path whose length is
not negative.

The second server appends the listing to whatever its array holds.
-/

namespace BsitLabs
namespace Listings

open SystemInfo CText MachineInt

variable (w : Win32)

/-- The record of an entry: the user, the identifier as a text, and the mask. -/
def record (entry : Ace × CText) : Option CText :=
  (w.convertSidToStringSid entry.1.sid).map fun sid =>
    lit "User: " ++ entry.2 ++ lit "\nSID: " ++ sid ++ lit "\nMask: " ++
      (lit "0x" ++ hex entry.1.mask.toNat)

/-- A system whose files all have two entries, for the same account. -/
def twoEntries : Win32 :=
  { Win32.silent with
    daclOf := fun _ => some (some [⟨1, []⟩, ⟨2, []⟩])
    lookupAccountSid := fun _ _ => some (lit "Max")
    convertSidToStringSid := fun _ => some (lit "S-1-1-0") }

/-- A system on which one entry has an account. -/
def oneEntry : Win32 := { twoEntries with daclOf := fun _ => some (some [⟨1, []⟩]) }

end Listings
end BsitLabs
