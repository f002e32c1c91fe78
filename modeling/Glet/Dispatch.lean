import Glet.Answers
import Glet.Batchers
import Glet.LoadBalancer
import Glet.OneShot
import Mathlib.Data.Nat.Pairing

/-!
# Dispatch

A batching thread takes a request only for a task that the scheduler has put on
the list of its proxy, when it has the batching slot of the model and room in its
batch, and when the load balancer lets it or more than one request waits. What an
output thread has received it handles before it takes the next batch. Here the
server has its proxies, each with its threads, and the load balancer.

What the server does with requests is what it does alone (`serves`), so all that
holds of it in every run holds here.
-/

namespace Glet

namespace Dispatch

open Replies (Server)

/-! ## State -/

/-- The threads of a proxy. -/
def THREAD_PER_TASK : Nat := 2 * 3

def TOTAL_OUTPUT_THREAD_PER_PROXY : Nat := 2

/-- Requests that one more check is not needed for. -/
def QUEUE_THRESHOLD : Nat := 1

/-- A proxy: what the load balancer reads of it, and what its threads and the
scheduler share. A batching thread has read its `maxdelay` when it began with its
batch. The batches of `outputQueue` and those that output threads have are places
in `sent`. -/
structure Proxy where
  info : ProxyInfo
  inRange : InRange 0 info
  slots : Slots.State String
  dutyCycle : ℚ
  maxdelay : Nat → ℚ
  outputQueue : List Nat
  results : List (Option Nat)

/-- The server with its proxies. The batching threads of `admitted` have asked the
load balancer and are about to take a request. -/
structure State where
  server : Server
  proxies : List Proxy
  loadBalancer : LoadBalancer
  admitted : List (Nat × Nat)

/-- `createNewProxy`, with its threads. -/
def Proxy.new (p : { p : ProxyInfo // InRange 0 p }) : Proxy where
  info := p.1
  inRange := p.2
  slots := Slots.start THREAD_PER_TASK TOTAL_OUTPUT_THREAD_PER_PROXY (fun _ => 0) [] []
  dutyCycle := 0
  maxdelay := fun _ => 0
  outputQueue := []
  results := List.replicate TOTAL_OUTPUT_THREAD_PER_PROXY none

/-- The proxies that are set up, before anything is scheduled. -/
def start (type : LoadBalancerType) (infos : List { p : ProxyInfo // InRange 0 p }) : State where
  server := Replies.start
  proxies := infos.map Proxy.new
  loadBalancer := { LoadBalancer.start with type }
  admitted := []

namespace State

/-- What the threads of a proxy see: the request queues are shared. -/
def look (st : State) (pr : Proxy) : Slots.State String :=
  { pr.slots with reqs := fun name => (st.server.reqList name).length }

def setProxy (st : State) (p : Nat) (pr : Proxy) : State :=
  { st with proxies := st.proxies.set p pr }

/-- The batching thread `i` of proxy `p`. -/
def batcher (st : State) (p i : Nat) : Option (Slots.Batcher String) :=
  (st.proxies[p]?).bind fun pr => pr.slots.batchers[i]?

end State

namespace Proxy

/-- The task of a thread that has the batching slot, and its requests so far. -/
def batching (pr : Proxy) (i : Nat) : Option (Slots.TaskSpec String × Nat) :=
  match pr.slots.batchers[i]? with
  | some (.batching task n) => some (task, n)
  | _ => none

/-- The batch whose result an output thread has, once it has given the execution
slot back. -/
def handles (pr : Proxy) (j : Nat) : Option Nat :=
  match pr.slots.outputs[j]?, pr.results[j]? with
  | some .idle, some (some b) => some b
  | _, _ => none

/-- The thread can leave its loop: the batch is full, its time is over, or it does
not wait and there is no request. A time that is not 0 can be over at any point. -/
def stops (pr : Proxy) (server : Server) (i : Nat) : Bool :=
  (pr.batching i).all fun e =>
    e.1.batchSize ≤ e.2 ∨ pr.maxdelay i ≠ 0 ∨ server.reqList e.1.reqName = []

/-- The proxy after a step of one of its threads. -/
def moved (pr : Proxy) (a : Slots.Act String) (slots : Slots.State String) : Proxy :=
  match a with
  | .enter i => { pr with slots, maxdelay := Function.update pr.maxdelay i pr.dutyCycle }
  | .pop j => { pr with
      slots
      outputQueue := pr.outputQueue.tail
      results := pr.results.set j pr.outputQueue.head? }
  | _ => { pr with slots }

end Proxy

/-! ## Steps -/

inductive Act where
  /-- A request thread, the drop thread or the thread of an application. -/
  | server (act : Replies.Act)
  /-- The scheduler for proxy `p`, or a thread of it, does what moves no request. -/
  | proxy (p : Nat) (a : Slots.Act String)
  /-- Batching thread `i` of proxy `p` has seen a request and asks the load
  balancer. -/
  | check (p i : Nat)
  /-- It takes a request. -/
  | pop (p i : Nat)
  /-- It finds the queue empty. -/
  | miss (p i : Nat)
  /-- `sendBatchedRequest`. -/
  | send (p i : Nat)
  /-- Output thread `j` of proxy `p` does the next thing with its result. -/
  | output (p j : Nat)
  /-- It is done with it. -/
  | next (p j : Nat)
  /-- The load balancer gets a new table. -/
  | balance (call : LoadBalancer.Call)
  /-- The scheduler routes, or models are loaded or unloaded, or a proxy is shut
  down or booted. -/
  | route (p : Nat) (netList : List (String × Nat)) (isSchedulable : Bool)
      (loadedModels : List String) (dutyCycle : ℚ)

/-- The acts of batching and output threads. -/
def ofProxy : Replies.Act → Bool
  | .pop _ _ => true
  | .send _ => true
  | .finish _ => true
  | .sendResult _ => true
  | .report _ => true
  | _ => false

/-- A thread of a proxy, as the server knows it. -/
def threadOf (p i : Nat) : Nat := Nat.pair p i

/-- The step waits for nothing but what the proxy has. -/
def State.free (st : State) (p : Nat) (pr : Proxy) : Slots.Act String → Bool
  | .giveUp i => (p, i) ∉ st.admitted ∧ pr.stops st.server i
  | .exec i => (p, i) ∉ st.admitted ∧ pr.stops st.server i
  | .pop j => pr.results[j]? = some none
  | _ => true

def serverStep (apps : List (String × AppSpec)) (act : Replies.Act) (st : State) : Option State :=
  if ofProxy act then none
  else (Replies.step apps act st.server).map fun server => { st with server }

def proxyStep (p : Nat) (a : Slots.Act String) (st : State) : Option State := do
  let pr ← st.proxies[p]?
  if a.inner ∧ st.free p pr a then
    let slots ← Slots.step a (st.look pr)
    some (st.setProxy p (pr.moved a slots))
  else none

/-- `checkLoad` and `is_queue_full`. -/
def check (p i : Nat) (st : State) : Option State := do
  let pr ← st.proxies[p]?
  let (task, n) ← pr.batching i
  let waiting := (st.server.reqList task.reqName).length
  if n < task.batchSize ∧ waiting ≠ 0 ∧ (p, i) ∉ st.admitted then
    let answer := st.loadBalancer.checkLoad (getModelID task.reqName) pr.info
    if answer.1 = true ∨ QUEUE_THRESHOLD < waiting then
      some { st with loadBalancer := answer.2, admitted := (p, i) :: st.admitted }
    else some { st with loadBalancer := answer.2 }
  else none

def pop (apps : List (String × AppSpec)) (p i : Nat) (st : State) : Option State := do
  let pr ← st.proxies[p]?
  let (task, _) ← pr.batching i
  if (p, i) ∈ st.admitted then
    let slots ← Slots.step (.add i) (st.look pr)
    let server ← Replies.step apps (.pop (threadOf p i) task.reqName) st.server
    some ({ st with server, admitted := st.admitted.erase (p, i) }.setProxy p { pr with slots })
  else none

/-- Another thread was faster. -/
def miss (p i : Nat) (st : State) : Option State := do
  let pr ← st.proxies[p]?
  let (task, _) ← pr.batching i
  if (p, i) ∈ st.admitted ∧ st.server.reqList task.reqName = [] then
    some { st with admitted := st.admitted.erase (p, i) }
  else none

def send (apps : List (String × AppSpec)) (p i : Nat) (st : State) : Option State := do
  let pr ← st.proxies[p]?
  let slots ← Slots.step (.send i) (st.look pr)
  let server ← Replies.step apps (.send (threadOf p i)) st.server
  some ({ st with server }.setProxy p { pr with
    slots
    outputQueue := pr.outputQueue ++ [st.server.sent.length] })

/-- What is next for the result of a batch: `allocateOutput`, then
`sendBatchedResults`. -/
def handling (b : Nat) (batch : Replies.Batch) : Option Replies.Act :=
  match batch.report, batch.toMark, batch.toSend with
  | some _, _, _ => some (.report b)
  | none, _ :: _, _ => some (.finish b)
  | none, [], _ :: _ => some (.sendResult b)
  | none, [], [] => none

/-- The batch of an output thread. -/
def State.result (st : State) (p j : Nat) : Option (Nat × Replies.Batch) := do
  let pr ← st.proxies[p]?
  let b ← pr.handles j
  let batch ← st.server.sent[b]?
  some (b, batch)

def output (apps : List (String × AppSpec)) (p j : Nat) (st : State) : Option State := do
  let (b, batch) ← st.result p j
  let act ← handling b batch
  let server ← Replies.step apps act st.server
  some { st with server }

def next (p j : Nat) (st : State) : Option State := do
  let pr ← st.proxies[p]?
  let (b, batch) ← st.result p j
  if (handling b batch).isNone then
    some (st.setProxy p { pr with results := pr.results.set j none })
  else none

def balance (call : LoadBalancer.Call) (st : State) : Option State :=
  if call.installs.isSome then
    (LoadBalancer.step call st.loadBalancer).map fun loadBalancer => { st with loadBalancer }
  else none

/-- A node without tasks leaves the duty cycle as it is. -/
def route (p : Nat) (netList : List (String × Nat)) (isSchedulable : Bool)
    (loadedModels : List String) (dutyCycle : ℚ) (st : State) : Option State := do
  let pr ← st.proxies[p]?
  some (st.setProxy p { pr with
    slots := { pr.slots with netList, isSchedulable, loadedModels }
    dutyCycle := if netList = [] then pr.dutyCycle else dutyCycle })

def step (apps : List (String × AppSpec)) : Act → State → Option State
  | .server act => serverStep apps act
  | .proxy p a => proxyStep p a
  | .check p i => check p i
  | .pop p i => pop apps p i
  | .miss p i => miss p i
  | .send p i => send apps p i
  | .output p j => output apps p j
  | .next p j => next p j
  | .balance call => balance call
  | .route p netList isSchedulable loadedModels dutyCycle =>
      route p netList isSchedulable loadedModels dutyCycle

/-! ## What the steps do -/

variable {apps : List (String × AppSpec)} {st st' : State} {p i j : Nat} {pr : Proxy}

theorem serverStep_cases {act : Replies.Act} (h : serverStep apps act st = some st') :
    ofProxy act = false ∧ ∃ server, Replies.step apps act st.server = some server ∧
      st' = { st with server } := by
  unfold serverStep at h
  split at h
  case isTrue => cases h
  case isFalse hact =>
    obtain ⟨server, hserver, rfl⟩ := Option.map_eq_some_iff.mp h
    exact ⟨by simpa using hact, server, hserver, rfl⟩

theorem proxyStep_cases {a : Slots.Act String} (h : proxyStep p a st = some st') :
    ∃ pr slots, st.proxies[p]? = some pr ∧ a.inner = true ∧ st.free p pr a = true ∧
      Slots.step a (st.look pr) = some slots ∧ st' = st.setProxy p (pr.moved a slots) := by
  obtain ⟨pr, hpr, h⟩ := Option.bind_eq_some_iff.mp h
  split at h
  case isFalse => cases h
  case isTrue hinner =>
    obtain ⟨slots, hslots, h⟩ := Option.bind_eq_some_iff.mp h
    exact ⟨pr, slots, hpr, hinner.1, hinner.2, hslots, (Option.some.inj h).symm⟩

theorem batching_eq {task : Slots.TaskSpec String} {n : Nat} :
    pr.batching i = some (task, n) ↔ pr.slots.batchers[i]? = some (.batching task n) := by
  unfold Proxy.batching
  constructor
  · intro h
    split at h
    case h_1 task' n' hi =>
      obtain ⟨rfl, rfl⟩ := Prod.mk.inj (Option.some.inj h)
      exact hi
    case h_2 => cases h
  · intro h
    simp only [h]

theorem handles_eq {b : Nat} : pr.handles j = some b ↔
    pr.slots.outputs[j]? = some .idle ∧ pr.results[j]? = some (some b) := by
  unfold Proxy.handles
  constructor
  · intro h
    split at h
    case h_1 hidle hresult =>
      obtain rfl := Option.some.inj h
      exact ⟨hidle, hresult⟩
    case h_2 => cases h
  · rintro ⟨hidle, hresult⟩
    simp only [hidle, hresult]

theorem check_cases (h : check p i st = some st') : ∃ pr task n, st.proxies[p]? = some pr ∧
    pr.slots.batchers[i]? = some (.batching task n) ∧ n < task.batchSize ∧
    (p, i) ∉ st.admitted ∧ ∃ admitted, (admitted = st.admitted ∨ admitted = (p, i) :: st.admitted) ∧
      st' = { st with
        loadBalancer := (st.loadBalancer.checkLoad (getModelID task.reqName) pr.info).2, admitted } := by
  obtain ⟨pr, hpr, h⟩ := Option.bind_eq_some_iff.mp h
  obtain ⟨⟨task, n⟩, hbatching, h⟩ := Option.bind_eq_some_iff.mp h
  dsimp only at h
  split at h
  case isFalse => cases h
  case isTrue hroom =>
    refine ⟨pr, task, n, hpr, batching_eq.mp hbatching, hroom.1, hroom.2.2, ?_⟩
    split at h
    · exact ⟨_, Or.inr rfl, (Option.some.inj h).symm⟩
    · exact ⟨_, Or.inl rfl, (Option.some.inj h).symm⟩

theorem pop_cases (h : pop apps p i st = some st') : ∃ pr task n slots server,
    st.proxies[p]? = some pr ∧ pr.slots.batchers[i]? = some (.batching task n) ∧
    Slots.step (.add i) (st.look pr) = some slots ∧
    Replies.step apps (.pop (threadOf p i) task.reqName) st.server = some server ∧
    st' = { st with server, admitted := st.admitted.erase (p, i) }.setProxy p { pr with slots } := by
  obtain ⟨pr, hpr, h⟩ := Option.bind_eq_some_iff.mp h
  obtain ⟨⟨task, n⟩, hbatching, h⟩ := Option.bind_eq_some_iff.mp h
  dsimp only at h
  split at h
  case isFalse => cases h
  case isTrue =>
    obtain ⟨slots, hslots, h⟩ := Option.bind_eq_some_iff.mp h
    obtain ⟨server, hserver, h⟩ := Option.bind_eq_some_iff.mp h
    exact ⟨pr, task, n, slots, server, hpr, batching_eq.mp hbatching, hslots, hserver,
      (Option.some.inj h).symm⟩

theorem miss_cases (h : miss p i st = some st') :
    (p, i) ∈ st.admitted ∧ st' = { st with admitted := st.admitted.erase (p, i) } := by
  obtain ⟨pr, hpr, h⟩ := Option.bind_eq_some_iff.mp h
  obtain ⟨⟨task, n⟩, hbatching, h⟩ := Option.bind_eq_some_iff.mp h
  dsimp only at h
  split at h
  case isFalse => cases h
  case isTrue hempty => exact ⟨hempty.1, (Option.some.inj h).symm⟩

theorem send_cases (h : send apps p i st = some st') : ∃ pr slots server,
    st.proxies[p]? = some pr ∧ Slots.step (.send i) (st.look pr) = some slots ∧
    Replies.step apps (.send (threadOf p i)) st.server = some server ∧
    st' = { st with server }.setProxy p { pr with
      slots
      outputQueue := pr.outputQueue ++ [st.server.sent.length] } := by
  obtain ⟨pr, hpr, h⟩ := Option.bind_eq_some_iff.mp h
  obtain ⟨slots, hslots, h⟩ := Option.bind_eq_some_iff.mp h
  obtain ⟨server, hserver, h⟩ := Option.bind_eq_some_iff.mp h
  exact ⟨pr, slots, server, hpr, hslots, hserver, (Option.some.inj h).symm⟩

theorem result_cases {b : Nat} {batch : Replies.Batch} (h : st.result p j = some (b, batch)) :
    ∃ pr, st.proxies[p]? = some pr ∧ pr.slots.outputs[j]? = some .idle ∧
      pr.results[j]? = some (some b) ∧ st.server.sent[b]? = some batch := by
  obtain ⟨pr, hpr, h⟩ := Option.bind_eq_some_iff.mp h
  obtain ⟨b', hb, h⟩ := Option.bind_eq_some_iff.mp h
  obtain ⟨batch', hbatch, h⟩ := Option.bind_eq_some_iff.mp h
  obtain ⟨rfl, rfl⟩ := Prod.mk.inj (Option.some.inj h)
  obtain ⟨hidle, hresult⟩ := handles_eq.mp hb
  exact ⟨pr, hpr, hidle, hresult, hbatch⟩

theorem output_cases (h : output apps p j st = some st') : ∃ b batch act server,
    st.result p j = some (b, batch) ∧ handling b batch = some act ∧
      Replies.step apps act st.server = some server ∧ st' = { st with server } := by
  obtain ⟨⟨b, batch⟩, hresult, h⟩ := Option.bind_eq_some_iff.mp h
  obtain ⟨act, hact, h⟩ := Option.bind_eq_some_iff.mp h
  obtain ⟨server, hserver, h⟩ := Option.bind_eq_some_iff.mp h
  exact ⟨b, batch, act, server, hresult, hact, hserver, (Option.some.inj h).symm⟩

theorem next_cases (h : next p j st = some st') : ∃ pr b batch, st.proxies[p]? = some pr ∧
    st.result p j = some (b, batch) ∧ handling b batch = none ∧
      st' = st.setProxy p { pr with results := pr.results.set j none } := by
  obtain ⟨pr, hpr, h⟩ := Option.bind_eq_some_iff.mp h
  obtain ⟨⟨b, batch⟩, hresult, h⟩ := Option.bind_eq_some_iff.mp h
  dsimp only at h
  split at h
  case isFalse => cases h
  case isTrue hnone =>
    exact ⟨pr, b, batch, hpr, hresult, Option.isNone_iff_eq_none.mp hnone, (Option.some.inj h).symm⟩

theorem balance_cases {call : LoadBalancer.Call} (h : balance call st = some st') :
    ∃ tickets loadBalancer, call.installs = some tickets ∧
      LoadBalancer.step call st.loadBalancer = some loadBalancer ∧ st' = { st with loadBalancer } := by
  unfold balance at h
  split at h
  case isFalse => cases h
  case isTrue hsome =>
    obtain ⟨tickets, htickets⟩ := Option.isSome_iff_exists.mp hsome
    obtain ⟨loadBalancer, hlb, rfl⟩ := Option.map_eq_some_iff.mp h
    exact ⟨tickets, loadBalancer, htickets, hlb, rfl⟩

theorem route_cases {netList : List (String × Nat)} {isSchedulable : Bool} {loadedModels : List String}
    {dutyCycle : ℚ} (h : route p netList isSchedulable loadedModels dutyCycle st = some st') : ∃ pr,
    st.proxies[p]? = some pr ∧ st' = st.setProxy p { pr with
      slots := { pr.slots with netList, isSchedulable, loadedModels }
      dutyCycle := if netList = [] then pr.dutyCycle else dutyCycle } := by
  obtain ⟨pr, hpr, h⟩ := Option.bind_eq_some_iff.mp h
  exact ⟨pr, hpr, (Option.some.inj h).symm⟩

/-- The act of the server alone that a step makes. -/
def Act.onServer (act : Act) (st : State) : Option Replies.Act :=
  match act with
  | .server act => some act
  | .pop p i => ((st.proxies[p]?).bind fun pr => pr.batching i).map fun e =>
      .pop (threadOf p i) e.1.reqName
  | .send p i => some (.send (threadOf p i))
  | .output p j => (st.result p j).bind fun e => handling e.1 e.2
  | _ => none

/-- A step does what the server does alone, or the server does nothing. -/
theorem server_step {act : Act} (h : step apps act st = some st') :
    (∃ act', act.onServer st = some act' ∧ Replies.step apps act' st.server = some st'.server) ∨
      (act.onServer st = none ∧ st'.server = st.server) := by
  cases act with
  | server act =>
      obtain ⟨-, server, hserver, rfl⟩ := serverStep_cases h
      exact Or.inl ⟨act, rfl, hserver⟩
  | proxy p a =>
      obtain ⟨pr, slots, -, -, -, -, rfl⟩ := proxyStep_cases h
      exact Or.inr ⟨rfl, rfl⟩
  | check p i =>
      obtain ⟨pr, task, n, -, -, -, -, admitted, -, rfl⟩ := check_cases h
      exact Or.inr ⟨rfl, rfl⟩
  | pop p i =>
      obtain ⟨pr, task, n, slots, server, hpr, hi, -, hserver, rfl⟩ := pop_cases h
      refine Or.inl ⟨.pop (threadOf p i) task.reqName, ?_, hserver⟩
      simp only [Act.onServer, hpr, Option.bind_some, batching_eq.mpr hi, Option.map_some]
  | miss p i =>
      obtain ⟨-, rfl⟩ := miss_cases h
      exact Or.inr ⟨rfl, rfl⟩
  | send p i =>
      obtain ⟨pr, slots, server, -, -, hserver, rfl⟩ := send_cases h
      exact Or.inl ⟨.send (threadOf p i), rfl, hserver⟩
  | output p j =>
      obtain ⟨b, batch, act, server, hresult, hact, hserver, rfl⟩ := output_cases h
      refine Or.inl ⟨act, ?_, hserver⟩
      rw [Act.onServer, hresult]
      exact hact
  | next p j =>
      obtain ⟨pr, b, batch, -, -, -, rfl⟩ := next_cases h
      exact Or.inr ⟨rfl, rfl⟩
  | balance call =>
      obtain ⟨tickets, loadBalancer, -, -, rfl⟩ := balance_cases h
      exact Or.inr ⟨rfl, rfl⟩
  | route p netList isSchedulable loadedModels dutyCycle =>
      obtain ⟨pr, -, rfl⟩ := route_cases h
      exact Or.inr ⟨rfl, rfl⟩

/-- The server with its proxies does what the server does. -/
theorem serves : Machine.Simulates (step apps) (Replies.step apps) fun st server =>
    st.server = server := by
  rintro act st st' server rfl hstep
  rcases server_step hstep with ⟨act', -, hserver⟩ | ⟨-, hserver⟩
  · exact ⟨st'.server, Machine.Reaches.next (.refl _) hserver, rfl⟩
  · exact ⟨st.server, .refl _, hserver⟩

end Dispatch

end Glet
