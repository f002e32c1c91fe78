import Glet.Addressing
import Glet.LoadControl
import Glet.Wire

/-!
# The control channel

The frontend controls the proxies of a node over one socket to its backend. A
command is a number of parameters, what to do, a local device, a partition and
what else it takes, and the backend answers each with one integer. It reads as
many integers as the first one says, so the two keep step whatever the command
is.

What is done is not always what was asked for. `executeControl` has a local
`state` that `getState` overwrites; `BACKEND_SET_STATE` takes it as it is,
`LOADING`, and the state in the command is read and dropped. And the loop stops
at a command that returns something else than `EXIT_SUCCESS`: a used memory of
0, or what happens to be returned by `setState`, which has no return statement.

The frontend waits for the answer of a command before it sends the next, and
uses it only to return it, so what it writes does not depend on the answers
(`stream`). What the backend gets to know when it executes a command is given
with the command, as a `Reading`.
-/

namespace Glet.Devices.Control

open Glet.Proxy (ProxyState)
open Wire (Reader)
open Wire.Reader

def EXIT_SUCCESS : Int := 0
def EXIT_FAILURE : Int := 1

/-- `BACKEND_CONTROL_CMD`. -/
inductive ControlCmd where
  | getState
  | setState
  | loadModel
  | unloadModel
  | startProxy
  | endProxy
  | disconnectProxy
  | connectProxy
  | getMem
  | getNGPUs
  deriving DecidableEq

def ControlCmd.toInt : ControlCmd → Int
  | .getState => 0
  | .setState => 1
  | .loadModel => 2
  | .unloadModel => 3
  | .startProxy => 4
  | .endProxy => 5
  | .disconnectProxy => 6
  | .connectProxy => 7
  | .getMem => 8
  | .getNGPUs => 9

def ControlCmd.ofInt? : Int → Option ControlCmd
  | 0 => some .getState
  | 1 => some .setState
  | 2 => some .loadModel
  | 3 => some .unloadModel
  | 4 => some .startProxy
  | 5 => some .endProxy
  | 6 => some .disconnectProxy
  | 7 => some .connectProxy
  | 8 => some .getMem
  | 9 => some .getNGPUs
  | _ => none

@[simp]
theorem ControlCmd.ofInt?_toInt (cmd : ControlCmd) : ofInt? cmd.toInt = some cmd := by
  cases cmd <;> rfl

def stateToInt : ProxyState → Int
  | .cold => 0
  | .booting => 1
  | .running => 2
  | .loading => 3
  | .exiting => 4
  | .flushed => 5

/-! ## The frontend -/

/-- A call of a member of `BackendProxyCtrl`. -/
inductive Call where
  | startProxy (p : ProxyInfo) (ngpus nparts : Int)
  | endProxy (p : ProxyInfo)
  | connectProxy (p : ProxyInfo)
  | disconnectProxy (p : ProxyInfo)
  | makeProxyLoadModel (p : ProxyInfo) (modelID batchSize : Int)
  | makeProxyUnloadModel (p : ProxyInfo) (modelID : Int)
  | markProxy (p : ProxyInfo) (state : ProxyState)
  | getProxyState (p : ProxyInfo)
  | getUsedMem (p : ProxyInfo)
  deriving DecidableEq

def Call.proxy : Call → ProxyInfo
  | .startProxy p _ _ => p
  | .endProxy p => p
  | .connectProxy p => p
  | .disconnectProxy p => p
  | .makeProxyLoadModel p _ _ => p
  | .makeProxyUnloadModel p _ => p
  | .markProxy p _ => p
  | .getProxyState p => p
  | .getUsedMem p => p

section Senders

variable (ctrl : BackendProxyCtrl)

/-- What all of them write to the control socket. -/
def sendControl (paramNum : Int) (cmd : ControlCmd) (p : ProxyInfo) (partitionNum : Int)
    (params : List Int) : List Int :=
  [paramNum, cmd.toInt, ctrl.lookupFrontDevIDtoBackDevID p, partitionNum] ++ params

def startProxy (p : ProxyInfo) : List Int := sendControl ctrl 3 .startProxy p p.partitionNum []

def endProxy (p : ProxyInfo) : List Int := sendControl ctrl 3 .endProxy p p.partitionNum []

def connectProxy (p : ProxyInfo) : List Int := sendControl ctrl 3 .connectProxy p p.partitionNum []

def disconnectProxy (p : ProxyInfo) : List Int :=
  sendControl ctrl 3 .disconnectProxy p p.partitionNum []

def makeProxyLoadModel (p : ProxyInfo) (modelID batchSize : Int) : List Int :=
  sendControl ctrl 5 .loadModel p p.partitionNum [modelID, batchSize]

def makeProxyUnloadModel (p : ProxyInfo) (modelID : Int) : List Int :=
  sendControl ctrl 4 .unloadModel p p.partitionNum [modelID]

def markProxy (p : ProxyInfo) (state : ProxyState) : List Int :=
  sendControl ctrl 4 .setState p p.partitionNum [stateToInt state]

def getProxyState (p : ProxyInfo) : List Int := sendControl ctrl 3 .getState p p.partitionNum []

/-- With a dummy partition. -/
def getUsedMem (p : ProxyInfo) : List Int := sendControl ctrl 3 .getMem p 0 []

def Call.words : Call → List Int
  | .startProxy p _ _ => Control.startProxy ctrl p
  | .endProxy p => Control.endProxy ctrl p
  | .connectProxy p => Control.connectProxy ctrl p
  | .disconnectProxy p => Control.disconnectProxy ctrl p
  | .makeProxyLoadModel p modelID batchSize => Control.makeProxyLoadModel ctrl p modelID batchSize
  | .makeProxyUnloadModel p modelID => Control.makeProxyUnloadModel ctrl p modelID
  | .markProxy p state => Control.markProxy ctrl p state
  | .getProxyState p => Control.getProxyState ctrl p
  | .getUsedMem p => Control.getUsedMem ctrl p

end Senders

/-- What a call sends, besides the device. -/
def Call.cmd : Call → ControlCmd
  | .startProxy _ _ _ => .startProxy
  | .endProxy _ => .endProxy
  | .connectProxy _ => .connectProxy
  | .disconnectProxy _ => .disconnectProxy
  | .makeProxyLoadModel _ _ _ => .loadModel
  | .makeProxyUnloadModel _ _ => .unloadModel
  | .markProxy _ _ => .setState
  | .getProxyState _ => .getState
  | .getUsedMem _ => .getMem

def Call.partNum : Call → Int
  | .getUsedMem _ => 0
  | c => c.proxy.partitionNum

def Call.params : Call → List Int
  | .makeProxyLoadModel _ modelID batchSize => [modelID, batchSize]
  | .makeProxyUnloadModel _ modelID => [modelID]
  | .markProxy _ state => [stateToInt state]
  | _ => []

/-- The number of parameters is right in every sender. -/
theorem Call.words_eq (ctrl : BackendProxyCtrl) (c : Call) :
    c.words ctrl = sendControl ctrl (3 + c.params.length) c.cmd c.proxy c.partNum c.params := by
  cases c <;> rfl

/-- `connectProxy` returns at once for a proxy that is connected already. -/
def Call.sends (isConnected : ProxyInfo → Bool) : Call → Bool
  | .connectProxy p => !isConnected p
  | _ => true

/-- `isConnected` after the call. -/
def Call.connected (isConnected : ProxyInfo → Bool) : Call → ProxyInfo → Bool
  | .connectProxy p => Function.update isConnected p true
  | .disconnectProxy p => Function.update isConnected p false
  | _ => isConnected

/-- What the backend gets to know when it executes a command: the state of the
proxy, the used memory of the GPU, and what `setState` returns. -/
structure Reading where
  proxyState : ProxyState
  usedMem : Int
  setStateRet : Int
  deriving DecidableEq

/-- The calls that send a command. -/
def sent : (ProxyInfo → Bool) → List (Call × Reading) → List (Call × Reading)
  | _, [] => []
  | isConnected, e :: es =>
      if e.1.sends isConnected then e :: sent (e.1.connected isConnected) es
      else sent (e.1.connected isConnected) es

/-- Those for the backend of `n`. -/
def commands (n : BackendNode) (isConnected : ProxyInfo → Bool) (run : List (Call × Reading)) :
    List (Call × Reading) :=
  (sent isConnected run).filter fun e => e.1.proxy.nodeID = n.nodeID

/-- What they write to its control socket. -/
def stream (ctrl : BackendProxyCtrl) (cmds : List (Call × Reading)) : List Int :=
  cmds.flatMap fun e => e.1.words ctrl

/-! ## The backend -/

/-- What a command has `pProxyCtrl` or `gpGPUUtil` do. -/
inductive Operation where
  | startProxy (q : ProxyInfo) (ngpus nparts : Int)
  | endProxy (q : ProxyInfo)
  | connectProxy (q : ProxyInfo)
  | disconnectProxy (q : ProxyInfo)
  | makeProxyLoadModel (q : ProxyInfo) (modelID batchSize : Int)
  | makeProxyUnloadModel (q : ProxyInfo) (modelID : Int)
  | markProxy (q : ProxyInfo) (state : Int)
  | getProxyState (q : ProxyInfo)
  | getUsedMemory (gpuid : Int)
  deriving DecidableEq

structure Execution where
  ops : List Operation
  replies : List Int
  ret : Int
  deriving DecidableEq

/-- `none` inside is `EXIT_FAILURE`; a device that `at` does not find and a
number of parameters below 3 end the backend. -/
def receiveControl (sys : SysMonitor) : Reader Int (Option (List Int)) := do
  let rdsize ← word
  if rdsize = 0 then pure none
  else if rdsize < 3 then failure
  else do
    let action ← word
    let localID ← word
    (sys.localIDToHostIDTable.lookup localID).elim failure fun devID => do
      let partNum ← word
      let params ← words (rdsize - 3).toNat
      pure (some (action :: devID :: partNum :: params))

/-- The local number of a GPU: the last entry of the table that has it. -/
def originalIdx (sys : SysMonitor) (devID : Int) : Int :=
  sys.localIDToHostIDTable.foldl (fun idx pair => if pair.2 = devID then pair.1 else idx) (-1)

/-- The `switch` of `executeControl`, where the local `state` is 3. -/
def dispatch (sys : SysMonitor) (nparts : Int) (r : Reading) (devID : Int) (q : ProxyInfo)
    (params : List Int) : Option ControlCmd → Option Execution
  | some .getState => some ⟨[.getProxyState q], [stateToInt r.proxyState], EXIT_SUCCESS⟩
  | some .setState => some ⟨[.markProxy q 3], [3], r.setStateRet⟩
  | some .connectProxy => some ⟨[.connectProxy q], [3], EXIT_SUCCESS⟩
  | some .disconnectProxy => some ⟨[.disconnectProxy q], [3], EXIT_SUCCESS⟩
  | some .loadModel =>
      params[0]?.bind fun modelID => params[1]?.bind fun batchSize =>
        some ⟨[.makeProxyLoadModel q modelID batchSize], [EXIT_SUCCESS], EXIT_SUCCESS⟩
  | some .unloadModel =>
      params[0]?.bind fun modelID =>
        some ⟨[.makeProxyUnloadModel q modelID], [EXIT_SUCCESS], EXIT_SUCCESS⟩
  | some .startProxy => some ⟨[.startProxy q sys.nGPUs nparts], [EXIT_SUCCESS], EXIT_SUCCESS⟩
  | some .endProxy => some ⟨[.endProxy q], [EXIT_SUCCESS], EXIT_SUCCESS⟩
  | some .getMem =>
      if originalIdx sys devID = -1 then none
      else some ⟨[.getUsedMemory (originalIdx sys devID)], [r.usedMem],
        if r.usedMem ≠ 0 then EXIT_SUCCESS else EXIT_FAILURE⟩
  | some .getNGPUs => some ⟨[], [sys.nGPUs], EXIT_SUCCESS⟩
  | none => some ⟨[], [], 1⟩

/-- `nparts` is `getNumProxyPerGPU()`. -/
def executeControl (sys : SysMonitor) (nparts : Int) (r : Reading) : List Int → Option Execution
  | action :: devID :: partNum :: params =>
      (sys.findProxy devID partNum).bind fun q =>
        dispatch sys nparts r devID q params (ControlCmd.ofInt? action)
  | _ => none

/-- An iteration, with what it leaves on the socket. -/
structure Iteration extends Execution where
  left : List Int
  deriving DecidableEq

/-- The loop of `initBackendControl`, for what has been sent until the
connection is closed. -/
def initBackendControl (sys : SysMonitor) (nparts : Int) :
    List Reading → List Int → Option (List Iteration)
  | _, [] => some []
  | [], _ => some []
  | r :: rs, ws => (receiveControl sys ws).bind fun received =>
      received.1.elim (some []) fun params =>
        (executeControl sys nparts r params).bind fun e =>
          if e.ret = EXIT_SUCCESS then
            (initBackendControl sys nparts rs received.2).map fun its => ⟨e, received.2⟩ :: its
          else some [⟨e, received.2⟩]

/-! ## What is asked for -/

/-- The operation of a call, on the proxy `q` of the backend. How many GPUs and
partitions there are the backend knows by itself. -/
def Call.operation (n : BackendNode) (ctrl : BackendProxyCtrl) (nparts : Int) (q : ProxyInfo) :
    Call → Operation
  | .startProxy _ _ _ => .startProxy q n.sys.nGPUs nparts
  | .endProxy _ => .endProxy q
  | .connectProxy _ => .connectProxy q
  | .disconnectProxy _ => .disconnectProxy q
  | .makeProxyLoadModel _ modelID batchSize => .makeProxyLoadModel q modelID batchSize
  | .makeProxyUnloadModel _ modelID => .makeProxyUnloadModel q modelID
  | .markProxy _ state => .markProxy q (stateToInt state)
  | .getProxyState _ => .getProxyState q
  | .getUsedMem p => .getUsedMemory (ctrl.lookupFrontDevIDtoBackDevID p)

/-- One iteration for each command: it takes the integers of that command off
the socket, does what the call says to the proxy it says, and answers once. -/
def ExecutedAsSent (n : BackendNode) (ctrl : BackendProxyCtrl) (nparts : Int) :
    List (Call × Reading) → List Iteration → Prop
  | [], its => its = []
  | e :: es, its => ∃ it its', its = it :: its' ∧ it.left = stream ctrl es ∧
      (∃ q, Counterpart n ctrl e.1.proxy q ∧ it.ops = [e.1.operation n ctrl nparts q]) ∧
        it.replies.length = 1 ∧ ExecutedAsSent n ctrl nparts es its'

/-- A state that is marked is `LOADING`. -/
def Call.marksLoading : Call → Bool
  | .markProxy _ state => state = .loading
  | _ => true

/-- The loop goes on after the command. -/
def goesOn (e : Call × Reading) : Bool :=
  match e.1 with
  | .markProxy _ _ => e.2.setStateRet = EXIT_SUCCESS
  | .getUsedMem _ => e.2.usedMem ≠ 0
  | _ => true

/-! ## A command -/

section Command

variable {nodes : List BackendNode} {n : BackendNode} {ctrl : BackendProxyCtrl} {sys : SysMonitor}
  {q : ProxyInfo} {first last localID : Int} {c : Call}

theorem receiveControl_words {devID : Int} (hlookup : sys.localIDToHostIDTable.lookup
      (ctrl.lookupFrontDevIDtoBackDevID c.proxy) = some devID) (rest : List Int) :
    receiveControl sys (c.words ctrl ++ rest) =
      some (some (c.cmd.toInt :: devID :: c.partNum :: c.params), rest) := by
  have hlen : c.params.length = (3 + (c.params.length : Int) - 3).toNat := by omega
  have hwords := words_append hlen rest
  rw [Call.words_eq]
  unfold receiveControl
  simp only [sendControl, List.cons_append, List.nil_append]
  rw [bind_of_eq (word_cons _ _), if_neg (by omega), if_neg (by omega), bind_of_eq (word_cons _ _),
    bind_of_eq (word_cons _ _), hlookup, Option.elim_some, bind_of_eq (word_cons _ _),
    bind_of_eq hwords]
  rfl

/-- Host GPUs are translated back. -/
theorem originalIdx_up {parts : List Int} (h : Up sys parts first last) (hpos : 0 ≤ localID)
    (hlt : localID < sys.nGPUs) : originalIdx sys (first + localID) = localID := by
  obtain ⟨i, rfl⟩ := Int.eq_ofNat_of_zero_le hpos
  have hfold : ∀ (l : List Nat) (idx : Int), i ∈ l ∨ idx = i →
      (l.map fun j : Nat => ((j : Int), first + (j : Int))).foldl
        (fun idx pair => if pair.2 = first + (i : Int) then pair.1 else idx) idx = i := by
    intro l
    induction l with
    | nil => exact fun idx h => h.resolve_left List.not_mem_nil
    | cons j l ih =>
        intro idx h
        rw [List.map_cons, List.foldl_cons]
        apply ih
        by_cases hj : j = i
        · exact Or.inr (by simp [hj])
        · rw [if_neg (by simpa using hj)]
          exact h.imp_left fun hmem => (List.mem_cons.mp hmem).resolve_left (Ne.symm hj)
  rw [originalIdx, h.table]
  exact hfold _ _ (Or.inl (List.mem_range.mpr (by omega)))

/-- What is done for a call. -/
def Call.execution (n : BackendNode) (ctrl : BackendProxyCtrl) (nparts : Int) (r : Reading)
    (q : ProxyInfo) : Call → Execution
  | .markProxy _ _ => ⟨[.markProxy q 3], [3], r.setStateRet⟩
  | .getProxyState _ => ⟨[.getProxyState q], [stateToInt r.proxyState], EXIT_SUCCESS⟩
  | .connectProxy _ => ⟨[.connectProxy q], [3], EXIT_SUCCESS⟩
  | .disconnectProxy _ => ⟨[.disconnectProxy q], [3], EXIT_SUCCESS⟩
  | .getUsedMem p => ⟨[.getUsedMemory (ctrl.lookupFrontDevIDtoBackDevID p)], [r.usedMem],
      if r.usedMem ≠ 0 then EXIT_SUCCESS else EXIT_FAILURE⟩
  | c => ⟨[c.operation n ctrl nparts q], [EXIT_SUCCESS], EXIT_SUCCESS⟩

theorem executeControl_cmd {devID partNum : Int} (hfind : sys.findProxy devID partNum = some q)
    (nparts : Int) (r : Reading) (cmd : ControlCmd) (params : List Int) :
    executeControl sys nparts r (cmd.toInt :: devID :: partNum :: params) =
      dispatch sys nparts r devID q params (some cmd) := by
  rw [executeControl, hfind, Option.bind_some, ControlCmd.ofInt?_toInt]

/-- What the loop makes of a command for a proxy of its node. -/
theorem executeControl_words (h : Placed nodes n first last c.proxy) (nparts : Int) (r : Reading)
    (rest : List Int) :
    ∃ params q, Counterpart n (setupBackendProxyCtrls nodes) c.proxy q ∧
      receiveControl n.sys (c.words (setupBackendProxyCtrls nodes) ++ rest) =
        some (some params, rest) ∧
      executeControl n.sys nparts r params =
        some (c.execution n (setupBackendProxyCtrls nodes) nparts r q) := by
  have hlookup := h.up.lookup_table h.local_nonneg h.local_lt
  have hfind := h.up.findProxy h.local_nonneg h.local_lt h.mem
  have hreceive := receiveControl_words hlookup rest
  refine ⟨_, _, h.counterpart, hreceive, ?_⟩
  cases c with
  | getUsedMem p =>
      obtain ⟨q, hq, hzero⟩ := exists_first h.mem
      have hfirst := h.up.findProxy h.local_nonneg h.local_lt hq
      have hidx := originalIdx_up h.up h.local_nonneg h.local_lt
      have hne : ¬(setupBackendProxyCtrls nodes).lookupFrontDevIDtoBackDevID p = -1 := by
        have hpos := h.local_nonneg
        intro heq
        rw [show (Call.getUsedMem p).proxy = p from rfl, heq] at hpos
        cases hpos
      rw [hzero] at hfirst
      show executeControl n.sys nparts r (ControlCmd.getMem.toInt :: _ :: 0 :: []) = _
      rw [executeControl_cmd hfirst, dispatch, hidx]
      exact if_neg hne
  | _ => exact executeControl_cmd hfind ..

theorem ret_execution (q : ProxyInfo) (nparts : Int) (e : Call × Reading) :
    (e.1.execution n ctrl nparts e.2 q).ret = EXIT_SUCCESS ↔ goesOn e := by
  obtain ⟨c, r⟩ := e
  cases c with
  | markProxy p state => exact decide_eq_true_iff.symm
  | getUsedMem p =>
      show (if r.usedMem ≠ 0 then EXIT_SUCCESS else EXIT_FAILURE) = EXIT_SUCCESS ↔
        decide (r.usedMem ≠ 0) = true
      rw [decide_eq_true_iff]
      split
      case isTrue h => exact iff_of_true rfl h
      case isFalse h => exact iff_of_false (by decide) h
  | _ => exact iff_of_true rfl rfl

theorem replies_execution (q : ProxyInfo) (nparts : Int) (r : Reading) (c : Call) :
    (c.execution n ctrl nparts r q).replies.length = 1 := by
  cases c <;> rfl

/-- Only a mark can be something else than what was asked for. -/
theorem ops_execution (hq : Counterpart n ctrl c.proxy q) (nparts : Int) (r : Reading) :
    (∃ q', Counterpart n ctrl c.proxy q' ∧
      (c.execution n ctrl nparts r q).ops = [c.operation n ctrl nparts q']) ↔ c.marksLoading := by
  cases c with
  | markProxy p state =>
      constructor
      · rintro ⟨q', -, hops⟩
        obtain ⟨-, hstate⟩ := Operation.markProxy.inj (List.singleton_inj.mp hops)
        cases state with
        | loading => rfl
        | _ => cases hstate
      · intro hloading
        obtain rfl := of_decide_eq_true hloading
        exact ⟨q, hq, rfl⟩
  | _ => exact iff_of_true ⟨q, hq, rfl⟩ rfl

end Command

/-! ## Runs -/

section Run

variable {nodes : List BackendNode} {n : BackendNode} {nparts : Int}

/-- One turn of the loop. -/
theorem initBackendControl_cons {e : Call × Reading} {first last : Int}
    (h : Placed nodes n first last e.1.proxy) (nparts : Int) (rs : List Reading) (rest : List Int) :
    ∃ it : Iteration, it.left = rest ∧ it.replies.length = 1 ∧
      ((∃ q, Counterpart n (setupBackendProxyCtrls nodes) e.1.proxy q ∧
        it.ops = [e.1.operation n (setupBackendProxyCtrls nodes) nparts q]) ↔ e.1.marksLoading) ∧
      initBackendControl n.sys nparts (e.2 :: rs)
          (e.1.words (setupBackendProxyCtrls nodes) ++ rest) =
        if goesOn e then (initBackendControl n.sys nparts rs rest).map fun its => it :: its
        else some [it] := by
  obtain ⟨params, q, hq, hreceive, hexecute⟩ := executeControl_words h nparts e.2 rest
  refine ⟨⟨e.1.execution n (setupBackendProxyCtrls nodes) nparts e.2 q, rest⟩, rfl,
    replies_execution q nparts e.2 e.1, ops_execution hq nparts e.2, ?_⟩
  cases hwords : e.1.words (setupBackendProxyCtrls nodes) ++ rest with
  | nil =>
      rw [Call.words_eq] at hwords
      cases hwords
  | cons w ws =>
      rw [hwords] at hreceive
      rw [initBackendControl, hreceive, Option.bind_some, Option.elim_some, hexecute,
        Option.bind_some]
      · simp only [ret_execution]
      · exact List.cons_ne_nil w ws

theorem executedAsSent_nil {ctrl : BackendProxyCtrl} {es : List (Call × Reading)} :
    ExecutedAsSent n ctrl nparts es [] ↔ es = [] := by
  cases es with
  | nil => exact iff_of_true rfl rfl
  | cons e es => exact iff_of_false (fun ⟨it, its, hits, _⟩ => by cases hits) (List.cons_ne_nil e es)

theorem executedAsSent_cons {ctrl : BackendProxyCtrl} {e : Call × Reading}
    {es : List (Call × Reading)} {it : Iteration} (hleft : it.left = stream ctrl es)
    (hreplies : it.replies.length = 1) (its : List Iteration) :
    ExecutedAsSent n ctrl nparts (e :: es) (it :: its) ↔
      (∃ q, Counterpart n ctrl e.1.proxy q ∧ it.ops = [e.1.operation n ctrl nparts q]) ∧
        ExecutedAsSent n ctrl nparts es its := by
  constructor
  · rintro ⟨it', its', hcons, -, hops, -, hes⟩
    obtain ⟨rfl, rfl⟩ := List.cons.inj hcons
    exact ⟨hops, hes⟩
  · rintro ⟨hops, hes⟩
    exact ⟨it, its, rfl, hleft, hops, hreplies, hes⟩

/-- Commands are executed as they are sent if and only if what is marked is
`LOADING` and the loop goes on until the last one. -/
theorem executed_iff {cmds : List (Call × Reading)}
    (h : ∀ e ∈ cmds, ∃ first last, Placed nodes n first last e.1.proxy) :
    (∃ its, initBackendControl n.sys nparts (cmds.map Prod.snd)
        (stream (setupBackendProxyCtrls nodes) cmds) = some its ∧
      ExecutedAsSent n (setupBackendProxyCtrls nodes) nparts cmds its) ↔
    (∀ e ∈ cmds, e.1.marksLoading) ∧ ∀ e ∈ cmds.dropLast, goesOn e := by
  induction cmds with
  | nil => exact iff_of_true ⟨[], rfl, rfl⟩ ⟨by simp, by simp⟩
  | cons e es ih =>
      obtain ⟨⟨first, last, hplaced⟩, hes⟩ := List.forall_mem_cons.mp h
      obtain ⟨it, hleft, hreplies, hops, hturn⟩ := initBackendControl_cons hplaced nparts
        (es.map Prod.snd) (stream (setupBackendProxyCtrls nodes) es)
      have hrun : initBackendControl n.sys nparts ((e :: es).map Prod.snd)
          (stream (setupBackendProxyCtrls nodes) (e :: es)) = _ := hturn
      have hcons : ∀ its, ExecutedAsSent n (setupBackendProxyCtrls nodes) nparts (e :: es)
          (it :: its) ↔ _ := executedAsSent_cons hleft hreplies
      rw [hrun, List.forall_mem_cons]
      by_cases hgo : goesOn e
      · have hlast : (∀ e' ∈ (e :: es).dropLast, goesOn e') ↔ ∀ e' ∈ es.dropLast, goesOn e' := by
          cases es with
          | nil => simp
          | cons e' es => simp [hgo]
        rw [if_pos hgo, hlast, and_assoc, ← ih hes, ← hops]
        constructor
        · rintro ⟨its, hits, hsent⟩
          obtain ⟨its', hits', rfl⟩ := Option.map_eq_some_iff.mp hits
          obtain ⟨hop, hsent⟩ := (hcons its').mp hsent
          exact ⟨hop, its', hits', hsent⟩
        · rintro ⟨hop, its', hits', hsent⟩
          exact ⟨it :: its', Option.map_eq_some_iff.mpr ⟨its', hits', rfl⟩,
            (hcons its').mpr ⟨hop, hsent⟩⟩
      · rw [if_neg hgo]
        constructor
        · rintro ⟨its, hits, hsent⟩
          obtain rfl := Option.some.inj hits
          obtain ⟨hop, hsent⟩ := (hcons []).mp hsent
          obtain rfl := executedAsSent_nil.mp hsent
          exact ⟨⟨hops.mp hop, by simp⟩, by simp⟩
        · rintro ⟨⟨hload, -⟩, hlast⟩
          have hnil : es = [] := by
            cases es with
            | nil => rfl
            | cons e' es => exact absurd (hlast e (by simp)) hgo
          subst hnil
          exact ⟨[it], rfl, (hcons []).mpr ⟨hops.mpr hload, rfl⟩⟩

theorem mem_of_mem_sent {isConnected : ProxyInfo → Bool} {run : List (Call × Reading)}
    {e : Call × Reading} (h : e ∈ sent isConnected run) : e ∈ run := by
  induction run generalizing isConnected with
  | nil => cases h
  | cons e' es ih =>
      unfold sent at h
      split at h
      · rcases List.mem_cons.mp h with rfl | h
        · exact List.mem_cons_self
        · exact List.mem_cons_of_mem _ (ih h)
      · exact List.mem_cons_of_mem _ (ih h)

/-- In every run of calls for proxies of the frontend, a backend executes the
commands it is sent as they are sent if and only if what is marked is `LOADING`
and the loop goes on until the last one. -/
theorem commands_executed (hsorted : nodes.Pairwise (fun m n => m.nodeID < n.nodeID))
    (hn : n ∈ nodes) {run : List (Call × Reading)}
    (hknown : ∀ e ∈ run, ∃ d, e.1.proxy ∈ (configureProxys nodes).perDevMPSInfo d)
    (isConnected : ProxyInfo → Bool) :
    (∃ its, initBackendControl n.sys nparts ((commands n isConnected run).map Prod.snd)
        (stream (setupBackendProxyCtrls nodes) (commands n isConnected run)) = some its ∧
      ExecutedAsSent n (setupBackendProxyCtrls nodes) nparts (commands n isConnected run) its) ↔
    (∀ e ∈ commands n isConnected run, e.1.marksLoading) ∧
      ∀ e ∈ (commands n isConnected run).dropLast, goesOn e := by
  refine executed_iff fun e he => ?_
  obtain ⟨hsent, hnode⟩ := List.mem_filter.mp he
  obtain ⟨d, hp⟩ := hknown e (mem_of_mem_sent hsent)
  obtain ⟨m, hm, first, last, hplaced⟩ := placed_of_mem hsorted hp
  obtain rfl := eq_of_nodeID hsorted hm hn (hplaced.node.symm.trans (of_decide_eq_true hnode))
  exact ⟨first, last, hplaced⟩

/-- The second `connectProxy` sends nothing. -/
theorem commands_executed_four :
    ∃ (n : BackendNode) (p : ProxyInfo) (r : Reading) (run : List (Call × Reading)),
      run = [(.connectProxy p, r), (.connectProxy p, r), (.makeProxyLoadModel p 3 8, r),
        (.markProxy p .loading, r), (.getUsedMem p, r)] ∧
      (commands n (fun _ => false) run).length = 4 ∧
      ∃ its, initBackendControl n.sys 2 ((commands n (fun _ => false) run).map Prod.snd)
          (stream (setupBackendProxyCtrls [n]) (commands n (fun _ => false) run)) = some its ∧
        ExecutedAsSent n (setupBackendProxyCtrls [n]) 2 (commands n (fun _ => false) run) its := by
  refine ⟨⟨⟨"1-2", [50, 100], _, rfl⟩, 0⟩, ⟨0, 1, 50, 1, 1⟩, ⟨.running, 500, 0⟩, _, rfl, by decide, ?_⟩
  refine (commands_executed (List.pairwise_singleton _ _) List.mem_cons_self (fun e he => ⟨1, ?_⟩)
    _).mpr ⟨by decide, by decide⟩
  revert e
  decide

/-- `RUNNING` is asked for and `LOADING` is marked. -/
theorem mark_dropped :
    ∃ (n : BackendNode) (p : ProxyInfo) (r : Reading) (run : List (Call × Reading)),
      p ∈ (configureProxys [n]).perDevMPSInfo 0 ∧ run = [(.markProxy p .running, r)] ∧
      r.setStateRet = EXIT_SUCCESS ∧
      ¬∃ its, initBackendControl n.sys 2 ((commands n (fun _ => false) run).map Prod.snd)
          (stream (setupBackendProxyCtrls [n]) (commands n (fun _ => false) run)) = some its ∧
        ExecutedAsSent n (setupBackendProxyCtrls [n]) 2 (commands n (fun _ => false) run) its := by
  refine ⟨⟨⟨"1-2", [50, 100], _, rfl⟩, 0⟩, ⟨0, 0, 100, 0, 2⟩, ⟨.running, 500, 0⟩, _, by decide, rfl,
    rfl, ?_⟩
  rintro ⟨its, hits, it, its', rfl, -, ⟨q, -, hops⟩, -⟩
  change some [(⟨⟨[.markProxy ⟨0, 1, 100, 0, 2⟩ 3], [3], 0⟩, []⟩ : Iteration)] =
    some (it :: its') at hits
  obtain ⟨rfl, -⟩ := List.cons.inj (Option.some.inj hits)
  cases hops

end Run

end Glet.Devices.Control
