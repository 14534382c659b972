import BsitLabs.Foundation.Transition
import BsitLabs.Tcp.Handlers

/-!
# The completion port and the loop of `Server::exec`

A `World` is the server together with what the system keeps for it: for each
completion key the operations that are outstanding or queued (`pending`), and for
each connection the bytes that have left through it (`wire`).  Three records for the
properties stand beside them, by connection: the packets the server has acted on, the
replies it has formed, and for each request that it has answered what its handler was given
(`Handling`).

An operation completes in one step and is dequeued in another, so anything may
happen in between.  The steps are

* `accepted`, `received`, `sent` --- an outstanding operation completes with
  success; a receive may bring any bytes that fit, a send may have taken any part
  of what was posted;
* `failed` --- an outstanding operation completes with an error;
* `dequeue` --- one iteration of the loop: `GetQueuedCompletionStatus` hands over a
  completed operation.  For a failed one it returns `FALSE`, and the loop goes on
  without looking at it (`dropped`).

Every call that starts an operation may also fail at once, which leaves nothing
behind; the answers of the iteration say so.  An iteration in which nothing has
completed changes nothing and is no step.
-/

namespace BsitLabs
namespace Tcp

open MachineInt Transition

/-- The `OVERLAPPED` blocks of a context. -/
inductive Block where
  | recv
  | send
  | cancel
  deriving DecidableEq, Repr

/-- Where an operation stands. -/
inductive Status where
  /-- Started and not completed. -/
  | posted
  /-- Completed with this number of bytes transferred, and queued. -/
  | done (transferred : ℕ)
  /-- Completed with an error, and queued. -/
  | failed
  deriving DecidableEq, Repr

/-- An operation, outstanding or queued. -/
structure Op where
  /-- The `OVERLAPPED` block it was started with. -/
  block : Block
  /-- The socket it was started on. -/
  sock : ℕ
  /-- Offset of its `WSABUF` in the buffer. -/
  off : ℕ
  /-- Length of its `WSABUF`. -/
  len : ℕ
  /-- Where it stands. -/
  status : Status
  deriving DecidableEq, Repr

/-- What the handler of a request was given. -/
structure Handling (Os : Type) where
  /-- The decrypted packet, at the start of `buf_recv`. -/
  bufRecv : Buffer bufSize
  /-- What the system has answered to its queries. -/
  os : Os

/-- The server and what the system keeps for it. -/
structure World (Os : Type) where
  srv : Server
  /-- The operations outstanding or queued, by completion key. -/
  pending : Slot → List Op
  /-- The bytes that have left, by connection. -/
  wire : ℕ → List UInt8
  /-- The packets acted on, by connection. -/
  packets : ℕ → List (List UInt8)
  /-- The replies formed, by connection. -/
  replies : ℕ → List (List UInt8)
  /-- What the handlers of the requests were given, by connection. -/
  handled : ℕ → List (Handling Os)
  /-- What has ended the process, if something has. -/
  fault : Option Fault

/-- What happens in a step. -/
inductive Event (Os : Type) where
  | accepted (k : ℕ)
  | received (i : Slot) (k : ℕ) (data : List UInt8)
  | sent (i : Slot) (k : ℕ) (n : ℕ)
  | failed (i : Slot) (k : ℕ)
  | dequeue (i : Slot) (k : ℕ) (ans : Answers Os)

variable {Os : Type}

/-- The operation a request starts on a socket.  A posted `overlap_cancel` is queued
at once. -/
def Request.op (sock : ℕ) : Request → Op
  | .read off len => ⟨.recv, sock, off, len, .posted⟩
  | .write off len => ⟨.send, sock, off, len, .posted⟩
  | .cancel => ⟨.cancel, sock, 0, 0, .done 0⟩

/-- Whether the call that starts a request succeeds. -/
def Request.starts (ans : Answers Os) : Request → Bool
  | .cancel => ans.posted
  | _ => ans.started

/-- `CancelIo`: what is outstanding completes with an error. -/
def Op.cancelled (o : Op) : Op :=
  if o.status = .posted then { o with status := .failed } else o

namespace World

/-- Replace the operations of a key. -/
def setPending (w : World Os) (i : Slot) (ops : List Op) : World Os :=
  { w with pending := Function.update w.pending i ops }

/-- Put one more entry at the end of a record. -/
def record {α : Type} (log : ℕ → List α) (sock : ℕ) (entry : List α) : ℕ → List α :=
  Function.update log sock (log sock ++ entry)

/-- Start a request for a slot. -/
def submit (ans : Answers Os) (w : World Os) (i : Slot) (req : Request) : World Os :=
  let left := if req = .cancel then (w.pending i).map Op.cancelled else w.pending i
  w.setPending i
    (if req.starts ans then left ++ [req.op (w.srv.gCtxs i).socket] else left)

/-- Start the read of a slot that has just been taken, if one has. -/
def startRead (ans : Answers Os) (w : World Os) : Option Slot → World Os
  | some i => w.submit ans i (scheduleRead w.srv i)
  | none => w

/-- Start the next accept. -/
def startAccept (ans : Answers Os) (w : World Os) : World Os :=
  if ans.accepting then
    w.setPending 0 (w.pending 0 ++ [⟨.recv, (w.srv.gCtxs 0).socket, 0, 0, .posted⟩])
  else w

/-- The server after `add_accepted_connection`, with what the completion counts in. -/
def accepting (ans : Answers Os) (s : Server) (transferred : ℕ) : Server × Option Slot :=
  addAcceptedConnection ans (s.setCtx 0 ((s.gCtxs 0).count transferred))

/-- An iteration with key zero: take the connection and accept the next one. -/
def acceptIteration (ans : Answers Os) (w : World Os) (transferred : ℕ) : World Os :=
  let w' := { w with srv := (accepting ans w.srv transferred).1 }.startRead ans
    (accepting ans w.srv transferred).2
  { w' with srv := scheduleAccept w'.srv }.startAccept ans

/-- The packet of a completed receive, put on record. -/
def actOn (w : World Os) (i : Slot) (transferred : ℕ) : World Os :=
  let c := w.srv.gCtxs i
  { w with packets := record w.packets c.socket [(c.count transferred).packet] }

/-- The server with a reply formed, and the reply put on record; with it, if the packet was a
request, what its handler was given. -/
def reply (ans : Answers Os) (w : World Os) (i : Slot) (s : Server) : World Os :=
  { w with
    srv := s
    replies := record w.replies (s.gCtxs i).socket [(s.gCtxs i).reply]
    handled := record w.handled (s.gCtxs i).socket
      (if clientSendCryptKey w.srv i then [] else [⟨(s.gCtxs i).bufRecv, ans.os⟩]) }

/-- An iteration with a receive: `overlap_recv_handler`, with the packet it acts on
and the reply it forms put on record. -/
def recvIteration (env : Env Os) (ans : Answers Os) (w : World Os) (i : Slot)
    (transferred : ℕ) : World Os :=
  match overlapRecvHandler env ans w.srv i transferred with
  | .error fault => { w.actOn i transferred with fault := some fault }
  | .ok (s, req) =>
    if transferred = 0 then { w with srv := s }.submit ans i req
    else ((w.actOn i transferred).reply ans i s).submit ans i req

/-- An iteration with a send: `overlap_send_handler`. -/
def sendIteration (ans : Answers Os) (w : World Os) (i : Slot) (transferred : ℕ) : World Os :=
  { w with srv := (overlapSendHandler w.srv i transferred).1 }.submit ans i
    (overlapSendHandler w.srv i transferred).2

/-- One iteration of the loop with a completed operation that has been dequeued. -/
def exec (env : Env Os) (ans : Answers Os) (w : World Os) (i : Slot) (block : Block)
    (transferred : ℕ) : World Os :=
  if i = 0 then w.acceptIteration ans transferred
  else match block with
    | .recv => w.recvIteration env ans i transferred
    | .send => w.sendIteration ans i transferred
    | .cancel => { w with srv := overlapCancelHandler w.srv i }

/-- Received bytes are stored in `buf_recv`. -/
def store (w : World Os) (i : Slot) (off : ℕ) (data : List UInt8) : World Os :=
  let c := w.srv.gCtxs i
  { w with srv := w.srv.setCtx i { c with bufRecv := c.bufRecv.write off data } }

/-- Sent bytes leave `buf_send` for the connection. -/
def deliver (w : World Os) (i : Slot) (o : Op) (n : ℕ) : World Os :=
  { w with wire := record w.wire o.sock ((w.srv.gCtxs i).bufSend.slice o.off n) }

/-- The steps of the server and the system. -/
inductive Step (env : Env Os) : World Os → Event Os → World Os → Prop where
  | accepted {w : World Os} {k : ℕ} {o : Op} (running : w.fault = none)
      (ho : (w.pending 0)[k]? = some o) (hst : o.status = .posted) :
      Step env w (.accepted k)
        (w.setPending 0 ((w.pending 0).set k { o with status := .done 0 }))
  | received {w : World Os} {i : Slot} {k : ℕ} {data : List UInt8} {o : Op}
      (running : w.fault = none) (hi : i ≠ 0) (ho : (w.pending i)[k]? = some o)
      (hst : o.status = .posted) (hb : o.block = .recv) (hlen : data.length ≤ o.len) :
      Step env w (.received i k data)
        ((w.store i o.off data).setPending i
          ((w.pending i).set k { o with status := .done data.length }))
  | sent {w : World Os} {i : Slot} {k n : ℕ} {o : Op} (running : w.fault = none) (hi : i ≠ 0)
      (ho : (w.pending i)[k]? = some o) (hst : o.status = .posted) (hb : o.block = .send)
      (hlen : n ≤ o.len) :
      Step env w (.sent i k n)
        ((w.deliver i o n).setPending i ((w.pending i).set k { o with status := .done n }))
  | failed {w : World Os} {i : Slot} {k : ℕ} {o : Op} (running : w.fault = none)
      (ho : (w.pending i)[k]? = some o) (hst : o.status = .posted) :
      Step env w (.failed i k)
        (w.setPending i ((w.pending i).set k { o with status := .failed }))
  | dequeue {w : World Os} {i : Slot} {k n : ℕ} {ans : Answers Os} {o : Op}
      (running : w.fault = none) (ho : (w.pending i)[k]? = some o) (hst : o.status = .done n) :
      Step env w (.dequeue i k ans)
        ((w.setPending i ((w.pending i).eraseIdx k)).exec env ans i o.block n)
  | dropped {w : World Os} {i : Slot} {k : ℕ} {ans : Answers Os} {o : Op}
      (running : w.fault = none) (ho : (w.pending i)[k]? = some o) (hst : o.status = .failed) :
      Step env w (.dequeue i k ans) (w.setPending i ((w.pending i).eraseIdx k))

/-- The server after `Server::Server`: the listening socket is the first, and the
socket of the first accept the second.  `accepting` says how that first `AcceptEx`
call ended. -/
def initial (accepting : Bool) : World Os where
  srv :=
    { gCtxs := Function.update (fun _ => ClientCtx.zero) 0 { ClientCtx.zero with socket := 1 }
      gAcceptedSocket := 2
      csp := 0
      cPublicKey := none
      handles := ⟨0, 2, [], [], []⟩ }
  pending := Function.update (fun _ => []) 0
    (if accepting then [⟨.recv, 1, 0, 0, .posted⟩] else [])
  wire _ := []
  packets _ := []
  replies _ := []
  handled _ := []
  fault := none

end World

/-- The server's runs. -/
def machine (env : Env Os) (accepting : Bool) : Machine (World Os) (Event Os) where
  init w := w = World.initial accepting
  step := World.Step env

/-- A step is taken by a process that no assertion has ended. -/
theorem World.Step.running {env : Env Os} {w w' : World Os} {e : Event Os}
    (hs : World.Step env w e w') : w.fault = none := by
  cases hs <;> assumption

/-- Dequeuing a completion that succeeded is one iteration of the loop. -/
theorem World.Step.dequeue_eq {env : Env Os} {w w' : World Os} {i : Slot} {k n : ℕ}
    {ans : Answers Os} {o : Op} (hs : World.Step env w (.dequeue i k ans) w')
    (ho : (w.pending i)[k]? = some o) (hst : o.status = .done n) :
    w' = (w.setPending i ((w.pending i).eraseIdx k)).exec env ans i o.block n := by
  cases hs with
  | dequeue _ ho' hst' =>
    obtain rfl := Option.some.inj (ho.symm.trans ho')
    obtain rfl := Status.done.inj (hst.symm.trans hst')
    rfl
  | dropped _ ho' hst' =>
    obtain rfl := Option.some.inj (ho.symm.trans ho')
    simp [hst] at hst'

/-! ## Fields of the updated worlds -/

namespace World

variable (w : World Os) (i : Slot)

@[simp] theorem setPending_pending_self (ops : List Op) :
    (w.setPending i ops).pending i = ops := by simp [setPending]

theorem setPending_pending_of_ne {j : Slot} (h : j ≠ i) (ops : List Op) :
    (w.setPending i ops).pending j = w.pending j := by simp [setPending, h]

@[simp] theorem setPending_srv (ops : List Op) : (w.setPending i ops).srv = w.srv := rfl

@[simp] theorem setPending_wire (ops : List Op) : (w.setPending i ops).wire = w.wire := rfl

@[simp] theorem setPending_packets (ops : List Op) :
    (w.setPending i ops).packets = w.packets := rfl

@[simp] theorem setPending_replies (ops : List Op) :
    (w.setPending i ops).replies = w.replies := rfl

@[simp] theorem setPending_handled (ops : List Op) :
    (w.setPending i ops).handled = w.handled := rfl

@[simp] theorem setPending_fault (ops : List Op) : (w.setPending i ops).fault = w.fault := rfl

@[simp] theorem submit_srv (ans : Answers Os) (req : Request) :
    (w.submit ans i req).srv = w.srv := rfl

@[simp] theorem submit_wire (ans : Answers Os) (req : Request) :
    (w.submit ans i req).wire = w.wire := rfl

@[simp] theorem submit_packets (ans : Answers Os) (req : Request) :
    (w.submit ans i req).packets = w.packets := rfl

@[simp] theorem submit_replies (ans : Answers Os) (req : Request) :
    (w.submit ans i req).replies = w.replies := rfl

@[simp] theorem submit_handled (ans : Answers Os) (req : Request) :
    (w.submit ans i req).handled = w.handled := rfl

@[simp] theorem submit_fault (ans : Answers Os) (req : Request) :
    (w.submit ans i req).fault = w.fault := rfl

theorem submit_pending_of_ne (ans : Answers Os) (req : Request) {j : Slot} (h : j ≠ i) :
    (w.submit ans i req).pending j = w.pending j := setPending_pending_of_ne _ _ h _

/-- A request for a slot with nothing outstanding is the slot's only operation, or
there is none. -/
theorem submit_pending_self (ans : Answers Os) (req : Request) (h : w.pending i = []) :
    (w.submit ans i req).pending i =
      if req.starts ans then [req.op (w.srv.gCtxs i).socket] else [] := by
  simp [submit, h]

@[simp] theorem store_pending (off : ℕ) (data : List UInt8) :
    (w.store i off data).pending = w.pending := rfl

@[simp] theorem deliver_pending (o : Op) (n : ℕ) : (w.deliver i o n).pending = w.pending := rfl

@[simp] theorem deliver_srv (o : Op) (n : ℕ) : (w.deliver i o n).srv = w.srv := rfl

@[simp] theorem actOn_srv (n : ℕ) : (w.actOn i n).srv = w.srv := rfl

@[simp] theorem actOn_pending (n : ℕ) : (w.actOn i n).pending = w.pending := rfl

@[simp] theorem actOn_wire (n : ℕ) : (w.actOn i n).wire = w.wire := rfl

@[simp] theorem actOn_replies (n : ℕ) : (w.actOn i n).replies = w.replies := rfl

@[simp] theorem actOn_handled (n : ℕ) : (w.actOn i n).handled = w.handled := rfl

@[simp] theorem actOn_fault (n : ℕ) : (w.actOn i n).fault = w.fault := rfl

section Reply

variable (ans : Answers Os) (s : Server)

@[simp] theorem reply_srv : (w.reply ans i s).srv = s := rfl

@[simp] theorem reply_pending : (w.reply ans i s).pending = w.pending := rfl

@[simp] theorem reply_wire : (w.reply ans i s).wire = w.wire := rfl

@[simp] theorem reply_packets : (w.reply ans i s).packets = w.packets := rfl

@[simp] theorem reply_fault : (w.reply ans i s).fault = w.fault := rfl

end Reply

@[simp] theorem deliver_packets (o : Op) (n : ℕ) : (w.deliver i o n).packets = w.packets := rfl

@[simp] theorem deliver_replies (o : Op) (n : ℕ) : (w.deliver i o n).replies = w.replies := rfl

@[simp] theorem deliver_handled (o : Op) (n : ℕ) : (w.deliver i o n).handled = w.handled := rfl

@[simp] theorem deliver_fault (o : Op) (n : ℕ) : (w.deliver i o n).fault = w.fault := rfl

@[simp] theorem record_self {α : Type} (log : ℕ → List α) (sock : ℕ) (entry : List α) :
    record log sock entry sock = log sock ++ entry := by simp [record]

theorem record_of_ne {α : Type} (log : ℕ → List α) {sock c : ℕ} (h : c ≠ sock)
    (entry : List α) : record log sock entry c = log c := by simp [record, h]

end World
end Tcp
end BsitLabs
