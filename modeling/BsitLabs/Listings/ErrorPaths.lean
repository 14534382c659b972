import BsitLabs.Foundation.Tokens
import BsitLabs.Listings.AccessRights

/-!
# What the queries about a path read

The four procedures for the owner and the access rights of a path test one result of all
the calls that they make.  Here their bodies are told once more, with every variable that a
call may leave unset as an `Option`, the lengths of the owner query and the result of
`GetAce` included.

The lengths that the owner query hands to `LookupAccountSid` are never set, so none of its
runs is clean.  A run of the query for the access rights is clean exactly if the list could
be read and is not null, its first entry could be read and its names fit, the identifier of
that entry has a text if it has an account, and the reply fits; and in the second server, if
what stands in the array before the call states no name of its own
(`pathQueries_clean_iff`).
-/

namespace BsitLabs
namespace Listings

open SystemInfo CText MachineInt

/-- What the system answers, `GetAce` included. -/
structure PathQueries extends Win32 where
  /-- `GetAce`: the entry at an index. -/
  getAce : Acl → ℕ → Option Ace

section Runs

variable (q : PathQueries) (r : Region UInt8) (path : CText)

/-- `owner_handler` and `serv_file_owner`, on a buffer. -/
def ownerRun : Except Misuse (Region UInt8) := do
  let userLen : Option ℕ := none
  let domainLen : Option ℕ := none
  let sid ← readSet .ownerSid (q.ownerOf path)
  let userCapacity ← readSet .userLen userLen
  let domainCapacity ← readSet .domainLen domainLen
  let user := q.lookupAccountSid sid userCapacity
  keep .overrun (storeOf ownerSize user ++ storeOf ownerSize (q.lookupDomain sid domainCapacity))
  let user := user.getD .nil
  let user := if user.length = 0 then lit "Max" else user
  return (r.strcat (lit "Owner: ").bytes).strcat user.bytes

/-- `access_right_handler` and `serv_file_access_right`, on a buffer: the loop over the list
ends after its first iteration. -/
def accessRightRun : Except Misuse (Region UInt8) := do
  let acl ← q.aclOf path
  if acl.length = 0 then
    return r
  else
    let aceInfo ← readSet .aceInfo (q.getAce acl 0)
    aceIteration q.toWin32 r aceInfo

/-- What is appended. -/
def shownTexts : Except Misuse (List CText) := do
  let acl ← q.aclOf path
  if acl.length = 0 then
    return []
  else
    let aceInfo ← readSet .aceInfo (q.getAce acl 0)
    entryTexts q.toWin32 aceInfo

theorem accessRightRun_eq : accessRightRun q r path = (shownTexts q path).map r.strcats := by
  unfold accessRightRun shownTexts
  cases q.aclOf path with
  | error misuse => rfl
  | ok acl =>
    cases acl with
    | nil => rfl
    | cons ace acl =>
      simp only [bind, Except.bind, List.length_cons, Nat.succ_ne_zero, if_false]
      cases q.getAce (ace :: acl) 0 with
      | none => rfl
      | some aceInfo => exact aceIteration_eq q.toWin32 r aceInfo

/-- If the first entry is the one at index zero, this is the query that both servers make. -/
theorem accessRightRun_eq_accessRight (hfirst : ∀ acl, q.getAce acl 0 = acl.head?) :
    accessRightRun q r path = accessRight q.toWin32 r path := by
  unfold accessRightRun accessRight
  cases q.aclOf path with
  | error misuse => rfl
  | ok acl =>
    simp only [bind, Except.bind, hfirst]
    cases acl <;> rfl

end Runs

/-! ## The names that a reply states -/

/-- The name that a line states, if it begins with one of the two labels. -/
def statedBy (line : List UInt8) : Option (List UInt8) :=
  (line.dropPrefix? (ascii "Owner: ")).or (line.dropPrefix? (ascii "User: "))

/-- The names that a text states, line by line. -/
def stated (text : List UInt8) : List (List UInt8) := (text.splitOn 10).filterMap statedBy

/-- The lines that are ended. -/
def endedLines (text : List UInt8) : List (List UInt8) := (text.splitOn 10).dropLast

/-- The line that is not. -/
def lastLine (text : List UInt8) : List UInt8 := (text.splitOn 10).getLastD []

example : stated (ascii "Owner: Max\nUser: Eve\nSID: S-1-1-0") = [ascii "Max", ascii "Eve"] := by
  decide

theorem statedBy_eq_some_iff {line name : List UInt8} :
    statedBy line = some name ↔ line = ascii "Owner: " ++ name ∨ line = ascii "User: " ++ name := by
  constructor
  · intro h
    obtain h | ⟨_, h⟩ := Option.or_eq_some_iff.mp h
    · obtain ⟨label, rfl, hlabel⟩ := List.dropPrefix?_eq_some_iff.mp h
      exact .inl (by rw [eq_of_beq hlabel])
    · obtain ⟨label, rfl, hlabel⟩ := List.dropPrefix?_eq_some_iff.mp h
      exact .inr (by rw [eq_of_beq hlabel])
  · have hself : ∀ label : List UInt8, (label ++ name).dropPrefix? label = some name := fun label =>
      List.dropPrefix?_append_of_beq name (beq_self_eq_true label)
    unfold statedBy
    rintro (rfl | rfl)
    · rw [hself, Option.some_or]
    · refine Option.or_eq_some_iff.mpr (.inr ⟨?_, hself _⟩)
      rw [Option.eq_none_iff_forall_ne_some]
      intro rest hrest
      obtain ⟨label, heq, hlabel⟩ := List.dropPrefix?_eq_some_iff.mp hrest
      rw [eq_of_beq hlabel] at heq
      exact absurd (List.cons.inj heq).1 (by decide)

/-- A name goes on to the end of its line. -/
theorem statedBy_append {line name : List UInt8} (h : statedBy line = some name)
    (rest : List UInt8) : statedBy (line ++ rest) = some (name ++ rest) := by
  rw [statedBy_eq_some_iff] at h ⊢
  exact h.imp (fun h => by rw [h, List.append_assoc]) fun h => by rw [h, List.append_assoc]

/-- Behind the start of a line, the label of a user states no name. -/
theorem statedBy_append_user {line : List UInt8} (hne : line ≠ []) (hnone : statedBy line = none)
    (name : List UInt8) : statedBy (line ++ (ascii "User: " ++ name)) = none := by
  have hlabel : ∀ label ∈ [ascii "Owner: ", ascii "User: "], ∀ rest,
      line ++ (ascii "User: " ++ name) = label ++ rest → ∃ more, line = label ++ more := by
    intro label hmem rest heq
    obtain ⟨more, hmore, hrest⟩ | ⟨more, hmore, _⟩ := List.append_eq_append_iff.mp heq
    · cases more with
      | nil => exact ⟨[], by rw [hmore, List.append_nil, List.append_nil]⟩
      | cons c more =>
        -- no label has the first letter of the other one behind its own
        obtain ⟨a, line, rfl⟩ := List.exists_cons_of_ne_nil hne
        obtain rfl : 85 = c := (List.cons.inj hrest).1
        have htail : (85 : UInt8) ∈ label.tail := by
          rw [hmore]
          exact List.mem_append_right _ List.mem_cons_self
        have hno : ∀ label ∈ [ascii "Owner: ", ascii "User: "], (85 : UInt8) ∉ label.tail := by
          decide
        exact absurd htail (hno label hmem)
    · exact ⟨more, hmore⟩
  rw [Option.eq_none_iff_forall_ne_some]
  intro rest hrest
  obtain ⟨more, hmore⟩ | ⟨more, hmore⟩ := (statedBy_eq_some_iff.mp hrest).imp
    (hlabel _ (by simp) rest) (hlabel _ (by simp) rest)
  · exact absurd (hnone.symm.trans (statedBy_eq_some_iff.mpr (.inl hmore))) (by simp)
  · exact absurd (hnone.symm.trans (statedBy_eq_some_iff.mpr (.inr hmore))) (by simp)

/-- A line goes on with the last line of what stands before it. -/
theorem stated_append {line : List UInt8} (h : 10 ∉ line) (before rest : List UInt8) :
    stated (before ++ (line ++ 10 :: rest)) =
      (endedLines before).filterMap statedBy ++
        ((statedBy (lastLine before ++ line)).toList ++ stated rest) := by
  unfold stated endedLines lastLine
  rw [← List.append_assoc, List.splitOn_append_cons_self, Tokens.splitOn_append_of_notMem h,
    List.filterMap_append, List.filterMap_append, List.append_assoc]
  rfl

/-- Names and identifiers as the system has them: there is no end of line in them, and no
colon in a name. -/
structure PlainNames (w : Win32) : Prop where
  user : ∀ sid capacity name, w.lookupAccountSid sid capacity = some name →
    10 ∉ name.bytes ∧ 58 ∉ name.bytes
  sid : ∀ sid text, w.convertSidToStringSid sid = some text → 10 ∉ text.bytes

/-- An entry is two lines more behind the name. -/
theorem bytes_aceTexts (ace : Ace) (user sidStr : CText) :
    (concat (aceTexts ace user sidStr)).bytes = ascii "User: " ++ user.bytes ++
      10 :: (ascii "SID: " ++ sidStr.bytes ++
        10 :: (ascii "Mask: 0x" ++ (hex ace.mask.toNat).bytes)) := by
  have hsid : (lit "\nSID: ").bytes = 10 :: ascii "SID: " := rfl
  have hmask : (lit "\nMask: ").bytes ++ (lit "0x").bytes = 10 :: ascii "Mask: 0x" := rfl
  have huser : (lit "User: ").bytes = ascii "User: " := rfl
  simp only [aceTexts, concat_cons, concat_nil, append_nil, bytes_append, hsid, huser,
    List.append_assoc, List.cons_append]
  rw [← List.append_assoc (lit "\nMask: ").bytes, hmask]
  rfl

/-- The lines behind the name state none. -/
theorem stated_sid_mask {sid mask : List UInt8} (hsid : 10 ∉ sid) (hmask : 10 ∉ mask) :
    stated (ascii "SID: " ++ sid ++ 10 :: (ascii "Mask: 0x" ++ mask)) = [] := by
  have hline : 10 ∉ ascii "SID: " ++ sid := fun h =>
    (List.mem_append.mp h).elim (by decide) hsid
  have hlast : 10 ∉ ascii "Mask: 0x" ++ mask := fun h =>
    (List.mem_append.mp h).elim (by decide) hmask
  unfold stated
  rw [List.splitOn_append_cons_self_of_not_mem hline, List.splitOn_eq_singleton hlast]
  rfl

/-! ## Clean runs -/

variable (q : PathQueries) (r : Region UInt8) (path : CText)

/-- The system has returned this name for the owner of the path. -/
def ReturnedOwner (name : List UInt8) : Prop :=
  ∃ sid capacity user, q.ownerOf path = some sid ∧ q.lookupAccountSid sid capacity = some user ∧
    user.bytes = name

/-- The system has returned this name for an entry of the list of the path. -/
def ReturnedUser (name : List UInt8) : Prop :=
  ∃ acl index ace capacity user, q.daclOf path = some (some acl) ∧
    q.getAce acl index = some ace ∧ q.lookupAccountSid ace.sid capacity = some user ∧
    user.bytes = name

/-- A run that reads nothing unset, follows no null pointer and stores into its own arrays
only, the one for the reply included; and the text of the reply states no name but those that
were returned. -/
def Clean (fits : Region UInt8 → Prop) (text : Region UInt8 → List UInt8)
    (returned : List UInt8 → Prop) (run : Except Misuse (Region UInt8)) : Prop :=
  ∃ reply, run = .ok reply ∧ fits reply ∧ ∀ name ∈ stated (text reply), returned name

/-- The answers with which the access rights can be told: a list that is not null and, unless
it is empty, a first entry that is kept. -/
def Told : Prop :=
  ∃ acl, q.daclOf path = some (some acl) ∧
    (acl ≠ [] → ∃ ace, q.getAce acl 0 = some ace ∧ EntryKept q.toWin32 ace)

/-- The entry that is looked at. -/
def shownAce : Option Ace :=
  match q.daclOf path with
  | some (some (ace :: acl)) => q.getAce (ace :: acl) 0
  | _ => none

/-- The name that is told for it. -/
def shownUser : Option CText :=
  (shownAce q path).bind fun ace => q.lookupAccountSid ace.sid accountLen

/-- The length of what is appended for it. -/
def shownLength : ℕ := ((shownAce q path).map (entryLength q.toWin32)).getD 0

/-- What stands before the reply states returned names only.  If a name goes behind it, that
is asked of the lines that are ended, and the last line must not be taken for a name that
goes on. -/
def NoOtherName (returned : List UInt8 → Prop) (before : List UInt8) : Option CText → Prop
  | none => ∀ name ∈ stated before, returned name
  | some _ => (∀ name ∈ (endedLines before).filterMap statedBy, returned name) ∧
      statedBy (lastLine before) = none

/-! ## The owner -/

/-- The owner query reads the length of its array, which is never set. -/
theorem ownerRun_misuse : ∃ misuse, ownerRun q r path = .error misuse := by
  unfold ownerRun
  cases q.ownerOf path with
  | none => exact ⟨.ownerSid, rfl⟩
  | some sid => exact ⟨.userLen, rfl⟩

/-- Whatever the unset length holds, the name that is told is one that was returned exactly
if the owner and a name that is not empty were. -/
theorem returned_ownerName_iff (w : Win32) (path : CText) :
    (∃ sid, w.ownerOf path = some sid ∧
        w.lookupAccountSid sid w.stray.userLen = some (ownerName w path)) ↔
      ∃ sid name, w.ownerOf path = some sid ∧
        w.lookupAccountSid sid w.stray.userLen = some name ∧ name.length ≠ 0 := by
  constructor
  · rintro ⟨sid, hsid, hname⟩
    refine ⟨sid, _, hsid, hname, fun hempty => ?_⟩
    have huser : w.ownerUser path = ownerName w path := by
      rw [Win32.ownerUser, Win32.ownerSid, hsid, Option.getD_some, hname, Option.getD_some]
    -- an empty name would have been replaced
    have hmax : ownerName w path = lit "Max" := by
      rw [ownerName, if_pos (huser ▸ hempty)]
    rw [hmax] at hempty
    exact absurd hempty (by decide)
  · rintro ⟨sid, name, hsid, hname, hlen⟩
    have huser : w.ownerUser path = name := by
      rw [Win32.ownerUser, Win32.ownerSid, hsid, Option.getD_some, hname, Option.getD_some]
    refine ⟨sid, hsid, ?_⟩
    rw [ownerName, huser, if_neg hlen, hname]

/-- The first server states that name. -/
theorem stated_owner (w : Win32) {path : CText} {reply : Region UInt8}
    (h : owner w Tcp.clearSend path = .ok reply) (hline : 10 ∉ (ownerName w path).bytes) :
    stated (reply.cString 0) = [(ownerName w path).bytes] := by
  obtain ⟨_, rfl⟩ := (owner_eq_ok_iff w _ path).mp h
  have hlabel : 10 ∉ ascii "Owner: " ++ (ownerName w path).bytes := fun h =>
    (List.mem_append.mp h).elim (by decide) hline
  have hbytes : (concat (ownerTexts w path)).bytes =
      ascii "Owner: " ++ (ownerName w path).bytes := by
    simp only [ownerTexts, concat_cons, concat_nil, append_nil, bytes_append]
    rfl
  rw [Region.cString_strcats, Tcp.cString_clearSend, hbytes, List.nil_append, stated,
    List.splitOn_eq_singleton hlabel, List.filterMap_cons, statedBy_eq_some_iff.mpr (.inl rfl)]
  rfl

/-! ## The access rights -/

section Shown

variable {q path} {texts : List CText}

/-- What is appended is nothing, or it is for an entry that the system has given. -/
theorem shownTexts_cases (h : shownTexts q path = .ok texts) :
    (shownAce q path = none ∧ texts = []) ∨
      ∃ acl ace, q.daclOf path = some (some acl) ∧ q.getAce acl 0 = some ace ∧
        shownAce q path = some ace ∧ entryTexts q.toWin32 ace = .ok texts := by
  obtain ⟨acl, hacl, htexts⟩ := except_bind_eq_ok_iff.mp h
  rw [q.aclOf_eq_ok_iff] at hacl
  unfold shownAce
  rw [hacl]
  cases acl with
  | nil => exact .inl ⟨rfl, (Except.ok.inj htexts).symm⟩
  | cons ace acl =>
    rw [List.length_cons, if_neg (Nat.succ_ne_zero _)] at htexts
    obtain ⟨aceInfo, hace, htexts⟩ := except_bind_eq_ok_iff.mp htexts
    rw [readSet_eq_ok_iff] at hace
    exact .inr ⟨_, aceInfo, rfl, hace, hace, htexts⟩

theorem length_of_shownTexts (h : shownTexts q path = .ok texts) :
    (concat texts).length = shownLength q path := by
  unfold shownLength
  obtain ⟨hnone, rfl⟩ | ⟨acl, ace, _, _, hsome, htexts⟩ := shownTexts_cases h
  · rw [hnone]
    rfl
  · rw [hsome, length_of_entryTexts q.toWin32 htexts]
    rfl

/-- **Which names the reply states**: none but returned ones, if what stood before it states
none of its own. -/
theorem returned_of_shownTexts_iff (hplain : PlainNames q.toWin32)
    (h : shownTexts q path = .ok texts) (before : List UInt8) :
    (∀ name ∈ stated (before ++ (concat texts).bytes), ReturnedUser q path name) ↔
      NoOtherName (ReturnedUser q path) before (shownUser q path) := by
  unfold shownUser
  obtain ⟨hnone, rfl⟩ | ⟨acl, ace, hdacl, hget, hsome, htexts⟩ := shownTexts_cases h
  · rw [hnone, concat_nil, bytes_nil, List.append_nil]
    exact Iff.rfl
  rw [hsome, Option.bind_some]
  obtain ⟨_, ⟨huser, rfl⟩ | ⟨user, sidStr, huser, hsid, rfl⟩⟩ := (entryTexts_eq_ok_iff _).mp htexts
  · rw [huser, concat_nil, bytes_nil, List.append_nil]
    exact Iff.rfl
  obtain ⟨hline, hcolon⟩ := hplain.user _ _ _ huser
  have hlabel : 10 ∉ ascii "User: " ++ user.bytes := fun h =>
    (List.mem_append.mp h).elim (by decide) hline
  have hmask : 10 ∉ (hex ace.mask.toNat).bytes := fun h =>
    absurd (le_of_mem_digits h) (by decide)
  have hreturned : ReturnedUser q path user.bytes :=
    ⟨acl, 0, ace, accountLen, user, hdacl, hget, huser, rfl⟩
  rw [huser, NoOtherName, bytes_aceTexts, stated_append hlabel,
    stated_sid_mask (hplain.sid _ _ hsid) hmask, List.append_nil]
  simp only [List.mem_append, or_imp, forall_and, Option.mem_toList]
  refine and_congr_right fun _ => ?_
  cases hlast : statedBy (lastLine before) with
  | none =>
    refine iff_of_true (fun name hname => ?_) rfl
    by_cases hempty : lastLine before = []
    · rw [hempty, List.nil_append, statedBy_eq_some_iff.mpr (.inr rfl)] at hname
      exact Option.some.inj hname ▸ hreturned
    · rw [statedBy_append_user hempty hlast] at hname
      cases hname
  | some name =>
    -- the name goes on with the label, and has a colon that no returned name has
    refine iff_of_false (fun hall => ?_) (fun heq => nomatch heq)
    obtain ⟨_, _, _, _, other, _, _, hother, hbytes⟩ := hall _ (statedBy_append hlast _)
    refine (hplain.user _ _ _ hother).2 ?_
    rw [hbytes]
    exact List.mem_append_right _ (List.mem_append_left _ (by decide))

variable (q path)

theorem exists_shownTexts_iff : (∃ texts, shownTexts q path = .ok texts) ↔ Told q path := by
  constructor
  · rintro ⟨texts, h⟩
    obtain ⟨acl, hacl, htexts⟩ := except_bind_eq_ok_iff.mp h
    refine ⟨acl, q.aclOf_eq_ok_iff.mp hacl, fun hne => ?_⟩
    rw [if_neg fun hlen => hne (List.eq_nil_of_length_eq_zero hlen)] at htexts
    obtain ⟨ace, hace, htexts⟩ := except_bind_eq_ok_iff.mp htexts
    exact ⟨ace, readSet_eq_ok_iff.mp hace, (exists_entryTexts_iff _ ace).mp ⟨texts, htexts⟩⟩
  · rintro ⟨acl, hdacl, htold⟩
    unfold shownTexts
    rw [q.aclOf_eq_ok_iff.mpr hdacl]
    by_cases hne : acl = []
    · exact ⟨[], by rw [hne]; rfl⟩
    · obtain ⟨ace, hace, hkept⟩ := htold hne
      obtain ⟨texts, htexts⟩ := (exists_entryTexts_iff _ ace).mpr hkept
      refine ⟨texts, except_bind_eq_ok_iff.mpr ⟨acl, rfl, ?_⟩⟩
      rw [if_neg fun hlen => hne (List.eq_nil_of_length_eq_zero hlen)]
      exact except_bind_eq_ok_iff.mpr ⟨ace, readSet_eq_ok_iff.mpr hace, htexts⟩

end Shown

/-- **When the query for the access rights is clean**, where the reply fits if what is
appended is short enough. -/
theorem clean_accessRightRun_iff (fits : Region UInt8 → Prop) (text : Region UInt8 → List UInt8)
    {short : Prop} (hplain : PlainNames q.toWin32)
    (hfits : ∀ texts, (concat texts).length = shownLength q path →
      (fits (r.strcats texts) ↔ short))
    (htext : ∀ texts, fits (r.strcats texts) →
      text (r.strcats texts) = (r.strcats texts).cString 0) :
    Clean fits text (ReturnedUser q path) (accessRightRun q r path) ↔
      Told q path ∧ short ∧
        NoOtherName (ReturnedUser q path) (r.cString 0) (shownUser q path) := by
  rw [accessRightRun_eq, ← exists_shownTexts_iff]
  constructor
  · rintro ⟨reply, hok, hfit, hnames⟩
    obtain ⟨texts, htexts, rfl⟩ := except_map_eq_ok_iff.mp hok
    rw [htext texts hfit, Region.cString_strcats,
      returned_of_shownTexts_iff hplain htexts] at hnames
    exact ⟨⟨texts, htexts⟩, (hfits texts (length_of_shownTexts htexts)).mp hfit, hnames⟩
  · rintro ⟨⟨texts, htexts⟩, hshort, hnames⟩
    have hfit := (hfits texts (length_of_shownTexts htexts)).mpr hshort
    refine ⟨_, except_map_eq_ok_iff.mpr ⟨texts, htexts, rfl⟩, hfit, ?_⟩
    rw [htext texts hfit, Region.cString_strcats]
    exact (returned_of_shownTexts_iff hplain htexts _).mpr hnames

/-- Nothing states no name. -/
theorem noOtherName_nil (returned : List UInt8 → Prop) : ∀ user, NoOtherName returned [] user
  | none => fun _ h => absurd h List.not_mem_nil
  | some _ => ⟨fun _ h => absurd h List.not_mem_nil, rfl⟩

/-! ## The two servers -/

section Handlers

variable (bufRecv : Buffer Tcp.bufSize) (buffer : InfoRpc.OutBuffer) (bufferSize : Int32)

/-- `owner_handler`. -/
def ownerHandler : Except Misuse (Region UInt8) := do
  let path ← Tcp.takePath bufRecv
  ownerRun q Tcp.clearSend path

/-- `access_right_handler`. -/
def accessRightHandler : Except Misuse (Region UInt8) := do
  let path ← Tcp.takePath bufRecv
  accessRightRun q Tcp.clearSend path

/-- `serv_file_owner`. -/
def servFileOwner : Except Misuse (Region UInt8) :=
  (ownerRun q buffer.memory path).map InfoRpc.sizeInFront

/-- `serv_file_access_right`. -/
def servFileAccessRight : Except Misuse (Region UInt8) :=
  (accessRightRun q buffer.memory path).map InfoRpc.sizeInFront

/-- A reply in `buf_send`. -/
def CleanSend (returned : List UInt8 → Prop) (run : Except Misuse (Region UInt8)) : Prop :=
  Clean (fun reply => reply.top ≤ Tcp.bufSize) (fun reply => reply.cString 0) returned run

/-- A reply in the array of a call. -/
def CleanCall (returned : List UInt8 → Prop) (run : Except Misuse (Region UInt8)) : Prop :=
  Clean (fun left => InfoRpc.Inside left bufferSize) InfoRpc.replyText returned run

/-- **When the queries about a path read nothing unset** and state no name that was not
returned: the owner query never, the query for the access rights if what it needs of the list
was answered and fits, and nothing else is stated in the array before. -/
theorem pathQueries_clean_iff (hplain : PlainNames q.toWin32) :
    ¬ CleanSend (ReturnedOwner q (Tcp.pathOf bufRecv)) (ownerHandler q bufRecv) ∧
    ¬ CleanCall bufferSize (ReturnedOwner q path) (servFileOwner q path buffer) ∧
    (CleanSend (ReturnedUser q (Tcp.pathOf bufRecv)) (accessRightHandler q bufRecv) ↔
      0 ≤ schar (bufRecv.get 1) ∧ Told q (Tcp.pathOf bufRecv) ∧
        shownLength q (Tcp.pathOf bufRecv) < Tcp.bufSize) ∧
    (CleanCall bufferSize (ReturnedUser q path) (servFileAccessRight q path buffer) ↔
      Told q path ∧
        (buffer.memory.strlen 0 + shownLength q path + 4 : ℤ) ≤ bufferSize.toInt ∧
        NoOtherName (ReturnedUser q path) (buffer.memory.cString 0) (shownUser q path)) := by
  refine ⟨?_, ?_, ?_, ?_⟩
  · rintro ⟨reply, hok, _⟩
    obtain ⟨path, _, hrun⟩ := except_bind_eq_ok_iff.mp hok
    obtain ⟨misuse, hmisuse⟩ := ownerRun_misuse q Tcp.clearSend path
    exact nomatch hmisuse.symm.trans hrun
  · rintro ⟨left, hok, _⟩
    obtain ⟨reply, hrun, _⟩ := except_map_eq_ok_iff.mp hok
    obtain ⟨misuse, hmisuse⟩ := ownerRun_misuse q buffer.memory path
    exact nomatch hmisuse.symm.trans hrun
  · have hrun : ∀ reply, accessRightHandler q bufRecv = .ok reply ↔
        0 ≤ schar (bufRecv.get 1) ∧
          accessRightRun q Tcp.clearSend (Tcp.pathOf bufRecv) = .ok reply :=
      fun _ => Tcp.takePath_bind_eq_ok_iff
    have hclean := clean_accessRightRun_iff q Tcp.clearSend (Tcp.pathOf bufRecv)
      (fun reply => reply.top ≤ Tcp.bufSize) (fun reply => reply.cString 0) hplain
      (fun texts hlen => hlen ▸ (Tcp.bounded_strcats texts).top_le_iff) fun _ _ => rfl
    rw [Tcp.cString_clearSend, and_iff_left (noOtherName_nil _ _)] at hclean
    unfold CleanSend Clean
    simp only [hrun, and_assoc, exists_and_left]
    exact and_congr_right fun _ => hclean
  · have hinside : ∀ texts, InfoRpc.Inside (InfoRpc.sizeInFront (buffer.memory.strcats texts))
        bufferSize ↔ (buffer.memory.strlen 0 + (concat texts).length + 4 : ℤ) ≤ bufferSize.toInt :=
      fun texts => by exact_mod_cast InfoRpc.inside_strcats_iff buffer texts bufferSize
    rw [← clean_accessRightRun_iff q buffer.memory path
      (fun reply => InfoRpc.Inside (InfoRpc.sizeInFront reply) bufferSize)
      (fun reply => InfoRpc.replyText (InfoRpc.sizeInFront reply)) hplain
      (fun texts hlen => hlen ▸ hinside texts) fun texts hfit => ?_]
    · exact exists_except_map_iff
    · have hroom := (hinside texts).mp hfit
      have hmax := Int32.toInt_lt bufferSize
      refine InfoRpc.replyText_sizeInFront ?_
      rw [Region.strlen_strcats]
      omega

/-- A list with one entry, which has an account, told by both servers. -/
theorem pathQueries_clean_iff_oneEntry :
    CleanSend (ReturnedUser ⟨oneEntry, fun acl i => acl[i]?⟩
        (Tcp.pathOf (Buffer.zero Tcp.bufSize)))
      (accessRightHandler ⟨oneEntry, fun acl i => acl[i]?⟩ (Buffer.zero Tcp.bufSize)) ∧
    CleanCall 256 (ReturnedUser ⟨oneEntry, fun acl i => acl[i]?⟩ .nil)
      (servFileAccessRight ⟨oneEntry, fun acl i => acl[i]?⟩ .nil .clear) := by
  have hplain : PlainNames oneEntry := by
    refine ⟨fun _ _ name h => ?_, fun _ text h => ?_⟩
    · obtain rfl := Option.some.inj h
      decide
    · obtain rfl := Option.some.inj h
      decide
  have htold : ∀ path, Told ⟨oneEntry, fun acl i => acl[i]?⟩ path := fun path => by
    refine ⟨[⟨1, []⟩], rfl, fun _ => ⟨⟨1, []⟩, rfl, fun user h => ?_, fun domain h => ?_,
      fun _ => Option.some_ne_none _⟩⟩
    · exact Option.some.inj h ▸ show (lit "Max").length < accountSize by decide
    · cases h
  have hclean := pathQueries_clean_iff ⟨oneEntry, fun acl i => acl[i]?⟩ .nil
    (Buffer.zero Tcp.bufSize) .clear 256 hplain
  exact ⟨hclean.2.2.1.mpr ⟨by decide, htold _, by decide⟩,
    hclean.2.2.2.mpr ⟨htold _, by decide, noOtherName_nil _ _⟩⟩

/-- With every call failing, the list of a path that does not exist is followed all the same,
and the owner of it is looked up. -/
theorem not_clean_nonexistent : ¬ ∀ (q : PathQueries) (bufRecv : Buffer Tcp.bufSize),
    PlainNames q.toWin32 →
      CleanSend (ReturnedOwner q (Tcp.pathOf bufRecv)) (ownerHandler q bufRecv) ∧
        CleanSend (ReturnedUser q (Tcp.pathOf bufRecv)) (accessRightHandler q bufRecv) := by
  intro hall
  have hplain : PlainNames Win32.silent := ⟨fun _ _ _ h => (nomatch h), fun _ _ h => nomatch h⟩
  obtain ⟨reply, hok, _⟩ :=
    (hall ⟨Win32.silent, fun _ _ => none⟩ (Buffer.zero Tcp.bufSize) hplain).2
  have hrun := (Tcp.takePath_bind_eq_ok_iff.mp hok).2
  exact nomatch hrun

end Handlers

end Listings
end BsitLabs
