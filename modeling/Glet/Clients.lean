import Glet.Instances
import Glet.LoadBalancer
import Glet.ProxyWire

/-!
# Clients and the frontend

A client writes the name of an application in a buffer of `MAX_REQ_SIZE` bytes
and the number of its inputs; then, for each request, each of its tensors with
the id of the request after it. There are no lengths on the way: how many bytes
a tensor has is known to the client from the tensor and to the request thread
from the application.

A socket takes and gives any number of bytes at a time. `socket_send` and
`socket_receive` go on until they are through, but an `int` is read by a single
call of `read`, and `socket_rxsize` takes what it gets.

The system has the server of `Glet.Replies` and a client at each socket.
-/

namespace Glet.Clients

open Glet.Data (DataType)
open Glet.ProxyWire (Build CInt byteCount)
open Glet.Replies (Server)

/-! ## Integers on a socket -/

/-- The bytes of an `int`, the lowest first. -/
def intBytes (x : Int) : List UInt8 :=
  let n := (x % 2 ^ 32).toNat
  [.ofNat n, .ofNat (n / 256), .ofNat (n / 256 ^ 2), .ofNat (n / 256 ^ 3)]

/-- An `int` that was 0, after its lowest bytes were overwritten. -/
def readInt (bs : List UInt8) : Int :=
  wrap32 (bs.foldr (fun b n => b.toNat + 256 * n) 0 : Nat)

@[simp] theorem length_intBytes (x : Int) : (intBytes x).length = 4 := rfl

theorem readInt_intBytes {x : Int} (h0 : 0 ≤ x) (h : x < 2 ^ 31) : readInt (intBytes x) = x := by
  obtain ⟨n, rfl⟩ := Int.eq_ofNat_of_zero_le h0
  have hn : ((n : Int) % 2 ^ 32).toNat = n := by omega
  have hfold : (intBytes n).foldr (fun b n => b.toNat + 256 * n) 0 = n := by
    simp only [intBytes, hn, List.foldr_cons, List.foldr_nil, UInt8.toNat_ofNat']
    omega
  rw [readInt, hfold, wrap32]
  exact Int.bmod_eq_of_le (by omega) (by omega)

/-! ## Applications -/

/-- An entry of `InputSpecVec`. -/
structure TensorSpec where
  dim : List Int
  output : List Nat
  id : Nat
  dataType : DataType

/-- `Datalen`. -/
def TensorSpec.datalen (s : TensorSpec) : CInt :=
  s.dim.foldl (fun n d => n * BitVec.ofInt 32 d) 1

/-- The number of bytes that `recvTensor` asks `socket_receive` for. -/
def TensorSpec.bytes (s : TensorSpec) : Int := (byteCount s.dataType s.datalen).toInt

/-- What `readAppJSONFile` has read. -/
structure App where
  name : String
  inputTensors : List TensorSpec
  models : List CompDep
  outputs : List CompDep

def App.spec (a : App) : AppSpec :=
  .setupModelDependency (a.inputTensors.map fun s => ⟨.input, "Input", s.id, [], s.output⟩)
    a.models a.outputs

theorem App.spec_inputTensors (a : App) : a.spec.inputTensors = a.inputTensors.map (·.id) := by
  simp [App.spec, AppSpec.inputTensors, AppSpec.setupModelDependency, List.filter_map,
    Function.comp_def]

/-- The bytes of a string. -/
def chars (s : String) : List UInt8 := s.toUTF8.data.toList

/-! ## Clients -/

/-- A tensor and the memory it has. -/
structure Tensor where
  numel : Nat
  storage : List UInt8

/-- What `socket_send` sends. -/
def socketSend (data : List UInt8) (size : CInt) : List UInt8 := data.take size.toInt.toNat

def sendTensorFloat (t : Tensor) : List UInt8 := socketSend t.storage (.ofNat 32 (t.numel * 4))

def sendTensorLong (t : Tensor) : List UInt8 := socketSend t.storage (.ofNat 32 (t.numel * 8))

def MAX_REQ_SIZE : Nat := 20

/-- `g_model`, what follows it in memory, `g_numReqs`, and the tensors that are
picked for a request. -/
structure Client where
  model : String
  after : List UInt8
  numReqs : Nat
  img : Nat → Tensor
  mnist : Nat → Tensor
  token : Nat → Tensor
  readable : MAX_REQ_SIZE ≤ after.length

namespace Client

variable (c : Client)

def useIMG : Bool := c.model != "lenet1" && c.model != "bert"
def useMNIST : Bool := c.model == "lenet1" || c.model == "game"
def useNLP : Bool := c.model == "bert"

/-- The tensors of a request; with `NO_NET` they are not sent. -/
def tensors (b : Build) (i : Nat) : List (List UInt8) :=
  ((if c.useIMG then [sendTensorFloat (c.img i)] else []) ++
    (if c.useMNIST then [sendTensorFloat (c.mnist i)] else []) ++
    if c.useNLP then [sendTensorLong (c.token i)] else []).map fun data =>
      if b = .net then data else []

/-- A turn of the loop of `sendRequest`: each tensor with the id after it. -/
def request (b : Build) (i : Nat) : List (List UInt8 × Int) :=
  (c.tensors b i).map fun data => (data, wrap32 (i + 1))

def numInput : Int := c.useIMG.toNat + c.useMNIST.toNat + c.useNLP.toNat

/-- The buffer with the name. -/
def name : List UInt8 := (chars c.model ++ 0 :: c.after).take MAX_REQ_SIZE

/-- Everything `sendRequest` sends. -/
def sendRequest (b : Build) : List UInt8 :=
  c.name ++ intBytes c.numInput ++
    ((List.range c.numReqs).flatMap (c.request b)).flatMap fun m => m.1 ++ intBytes m.2

/-- The entries of `gp_reqEndTime` that `recvRequest` writes, if enough ids come. -/
def recvRequest (ids : List Int) : Option (List Int) :=
  if c.numReqs ≤ ids.length then some ((ids.take c.numReqs).map fun id => id - 1) else none

end Client

/-! ## The system -/

/-- How it was built, `AppSpecVec`, and the client at each socket. -/
structure Deployment where
  build : Build
  apps : List App
  clients : Nat → Option Client

/-- Where a request thread is: in `handleRequest`, or in `recvTensor` with the
data or the id of a tensor. It has ended, or it turns in a loop without inputs. -/
inductive Thread where
  | name (got : List UInt8)
  | numInput (name : List UInt8)
  | data (specs : List TensorSpec) (got : List UInt8)
  | taskID (specs : List TensorSpec) (data : List UInt8)
  | ended

/-- What the client has still to send, what was sent and not read, and the
tensors that were placed on queues, with their nodes and ids. -/
structure Conn where
  toSend : List UInt8
  arrived : List UInt8
  thread : Thread
  placed : List (Nat × List UInt8 × Int)

structure System where
  server : Server
  conns : Nat → Conn

def System.setConn (st : System) (fd : Nat) (c : Conn) : System :=
  { st with conns := Function.update st.conns fd c }

/-- One call of `send` or of `recv` and `read`, with the number of bytes it
returns, or a step of another thread of the server. -/
inductive Act where
  | write (fd n : Nat)
  | read (fd n : Nat)
  | serve (act : Replies.Act)

/-- The result of `recv` for `size` bytes; it waits for the first one. -/
def Conn.recv (c : Conn) (size n : Nat) : Option (List UInt8 × Conn) :=
  if 0 < n ∧ n ≤ size ∧ n ≤ c.arrived.length then
    some (c.arrived.take n, { c with arrived := c.arrived.drop n })
  else none

/-- `socket_rxsize`; once the client has closed the socket, it reads nothing. -/
def Conn.rxsize (c : Conn) (n : Nat) : Option (Int × Conn) :=
  if n = 0 then if c.toSend = [] ∧ c.arrived = [] then some (0, c) else none
  else (c.recv 4 n).map fun p => (readInt p.1, p.2)

/-- `std::string AppName(CharName)`. -/
def appName (buffer : List UInt8) : List UInt8 := buffer.takeWhile (· ≠ 0)

namespace Deployment

variable (d : Deployment)

/-- `AppSpecVec`, as the server has it. -/
def specs : List (String × AppSpec) := d.apps.map fun a => (a.name, a.spec)

/-- The loop over `AppSpecVec`. -/
def app? (name : List UInt8) : Option App := d.apps.reverse.find? fun a => chars a.name == name

/-- The next call of `recvTensor`. -/
def nextTensor (specs : List TensorSpec) : Thread :=
  if specs = [] then .ended
  else if d.build = .net then .data specs []
  else .taskID specs []

def start : System where
  server := Replies.start
  conns := fun fd => ⟨(d.clients fd).elim [] (·.sendRequest d.build), [], .name [], []⟩

def write (fd n : Nat) (st : System) : Option System :=
  let c := st.conns fd
  if 0 < n ∧ n ≤ c.toSend.length then
    some (st.setConn fd
      { c with toSend := c.toSend.drop n, arrived := c.arrived ++ c.toSend.take n })
  else none

/-- The spec that the request thread of a socket has reached. -/
def current (st : System) (fd : Nat) (specs : List TensorSpec) : Option TensorSpec := do
  let t ← st.server.current fd
  let k ← st.server.instances[t]?
  specs[k.arrived]?

def read (fd n : Nat) (st : System) : Option System :=
  let c := st.conns fd
  match c.thread with
  | .name got => do
      let (bs, c) ← c.recv (MAX_REQ_SIZE - got.length) n
      let buffer := got ++ bs
      let thread := if buffer.length = MAX_REQ_SIZE then .numInput (appName buffer) else .name buffer
      some (st.setConn fd { c with thread })
  | .numInput name => do
      let (_, c) ← c.rxsize n
      -- the number is printed, nothing else
      match d.app? name with
      | none => some (st.setConn fd { c with thread := .ended })
      | some a => do
          let server ← Replies.step d.specs (.connect a.name fd) st.server
          let thread := d.nextTensor a.inputTensors
          some ({ st with server }.setConn fd { c with thread })
  | .data specs got => do
      let spec ← current st fd specs
      if spec.bytes ≤ 0 then
        some (st.setConn fd { c with thread := .ended })
      else do
        let (bs, c) ← c.recv (spec.bytes.toNat - got.length) n
        let data := got ++ bs
        let thread := if data.length = spec.bytes.toNat then .taskID specs data else .data specs data
        some (st.setConn fd { c with thread })
  | .taskID specs data => do
      let spec ← current st fd specs
      let (tid, c) ← c.rxsize n
      let server ← Replies.step d.specs (.recvTensor fd tid) st.server
      if tid ≤ 0 then
        some ({ st with server }.setConn fd { c with thread := .ended })
      else
        let thread := d.nextTensor specs
        let placed := c.placed ++ [(spec.id, data, tid)]
        some ({ st with server }.setConn fd { c with thread, placed })
  | .ended => none

/-- Request threads alone connect and receive. -/
def serve (act : Replies.Act) (st : System) : Option System :=
  match act with
  | .connect _ _ => none
  | .recvTensor _ _ => none
  | act => (Replies.step d.specs act st.server).map fun server => { st with server }

def step : Act → System → Option System
  | .write fd n => write fd n
  | .read fd n => d.read fd n
  | .serve act => d.serve act

end Deployment

/-- The thread reads an `int`. -/
def Thread.isInt : Thread → Bool
  | .numInput _ => true
  | .taskID _ _ => true
  | _ => false

/-- Where an `int` is read, all of it has arrived, or the socket is closed. -/
def Whole (st : System) : Act → Prop
  | .read fd n => (st.conns fd).thread.isInt = true → n ≠ 0 → n = 4
  | _ => True

instance (st : System) : ∀ act, Decidable (Whole st act)
  | .write _ _ => .isTrue trivial
  | .read fd n => inferInstanceAs (Decidable ((st.conns fd).thread.isInt = true → n ≠ 0 → n = 4))
  | .serve _ => .isTrue trivial

end Glet.Clients
