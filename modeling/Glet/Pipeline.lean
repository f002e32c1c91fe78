import Glet.BatchedRequest
import Glet.Machine

/-!
# The data path of a proxy

A batch goes from the frontend over the backend to the proxy, and its output
the same way back. Outputs carry no batch id. They are matched by order: the
frontend keeps the batches it has sent in `PerProxyOutputQueue`, the backend
keeps batch ids and sizes in `MapProxytoOutputQueue`, and each of them pops an
entry for each output it reads.

The threads are the batching threads and output threads of the frontend, the
input, output and control threads of the backend, and the threads of the proxy
that receive, load, compute and send. A step is a critical section or what a
thread does between two; on the sockets, every word is written in a step of its
own, so that only the locks keep messages apart. A message is read in one step
when all of it has arrived: each socket has one reader, or, in the frontend,
one at a time.
-/

namespace Glet.Data

open Wire (Stream Carries)

/-! ## States -/

/-- The holder of `sendMtx` in the frontend. -/
inductive Sender (cfg : ProxyConfig) where
  | free
  /-- The batch is not on the output queue yet. -/
  | locked (b : BatchedRequest cfg)
  | sending (b : BatchedRequest cfg)

/-- The thread of the backend that calls `recvBatchedTensor`. -/
inductive InputThread where
  | idle
  | received (job : Job)
  /-- It holds `sendMtx` of the backend. -/
  | sending (job : Job)
  /-- It has sent the request and not pushed its entry yet. -/
  | sent (job : Job)

/-- The threads, queues and sockets of one proxy. `results` has what was read
with the batch it was read for, `sent` what the proxy has sent and for which
job; `failed` says that an assertion on the batch size of an output has failed. -/
structure Pipeline (cfg : ProxyConfig) where
  batchTaskID : Nat
  ready : List (BatchedRequest cfg)
  sender : Sender cfg
  outputQueue : List (BatchedRequest cfg)
  reading : Option (BatchedRequest cfg)
  results : List (BatchedRequest cfg × Tensor)
  toBackend : Stream Word
  input : InputThread
  control : Bool
  toProxy : Stream Word
  awaiting : List (Nat × Nat)
  waiting : Option (Nat × Nat)
  toFrontend : Stream Word
  received : Option ProxyMsg
  inputQueue : List Job
  controlQueue : List ProxyMsg
  loaded : List Nat
  computing : Option Job
  proxyOutputs : List (Job × Tensor)
  sent : List (Job × Tensor)
  fromProxy : Stream Word
  failed : Bool

namespace Pipeline

variable {cfg : ProxyConfig}

def start (cfg : ProxyConfig) : Pipeline cfg where
  batchTaskID := 0
  ready := []
  sender := .free
  outputQueue := []
  reading := none
  results := []
  toBackend := .empty
  input := .idle
  control := false
  toProxy := .empty
  awaiting := []
  waiting := none
  toFrontend := .empty
  received := none
  inputQueue := []
  controlQueue := []
  loaded := []
  computing := none
  proxyOutputs := []
  sent := []
  fromProxy := .empty
  failed := false

/-! ## Steps -/

inductive Act (cfg : ProxyConfig) where
  /-- A batching thread has taken requests from the queue of a model. -/
  | batch (jid maxBatch : Nat) (requests : List (Request cfg))
  | lockSend (batchID : Nat)
  | pushOutput
  | putToBackend
  | unlockSend
  /-- An output thread takes `PerProxyOutputMtx` and the first batch. -/
  | popOutput
  | recvResult
  | recvBatchedTensor
  | lockInput
  | makeProxyLoadModel (modelID batchSize : Nat)
  | makeProxyUnloadModel (modelID : Nat)
  | putToProxy
  | unlockInput
  | unlockControl
  | pushAwaiting
  | popAwaiting
  | receiveandsendOutput
  | putToFrontend
  | recvInput
  | pushToQueue
  | loadControl
  | popInput
  | forward
  | popProxyOutput
  | putFromProxy

/-- Is `sendMtx` of the backend free? -/
def proxyMtxFree (st : Pipeline cfg) : Bool :=
  !st.control && match st.input with
    | .sending _ => false
    | _ => true

def step : Act cfg → Pipeline cfg → Option (Pipeline cfg)
  -- the frontend: `initProxy` and `sendBatchedRequest`
  | .batch jid maxBatch requests, st =>
      if requests ≠ [] ∧ ∀ r ∈ requests, r.jid = jid then
        (BatchedRequest.build cfg st.batchTaskID jid maxBatch requests).map fun b =>
          { st with batchTaskID := st.batchTaskID + 1, ready := b :: st.ready }
      else none
  | .lockSend batchID, st =>
      match st.sender, st.ready.find? (fun b => b.batchID == batchID) with
      | .free, some b =>
          -- assert(tnum == input_info->getBatchedTensor().size(0))
          if b.requests.length = b.tensor.batchSize then
            some { st with
              sender := .locked b
              ready := st.ready.eraseP (fun b => b.batchID == batchID) }
          else none
      | _, _ => none
  | .pushOutput, st =>
      match st.sender, st.reading with
      | .locked b, none =>
          some { st with
            sender := .sending b
            outputQueue := st.outputQueue ++ [b]
            toBackend := st.toBackend.send (sendRequestToBackend b.job) }
      | _, _ => none
  | .putToBackend, st => st.toBackend.put.map fun s => { st with toBackend := s }
  | .unlockSend, st =>
      match st.sender, st.toBackend.writing with
      | .sending _, [] => some { st with sender := .free }
      | _, _ => none
  -- the frontend: `initOutput`
  | .popOutput, st =>
      match st.reading, st.outputQueue with
      | none, b :: queue => some { st with reading := some b, outputQueue := queue }
      | _, _ => none
  | .recvResult, st =>
      match st.reading, st.toFrontend.recv recvOutput with
      | some b, some (output, s) =>
          if output.batchSize = b.requests.length then
            some { st with
              reading := none
              results := st.results ++ [(b, output)]
              toFrontend := s }
          else some { st with failed := true }
      | _, _ => none
  -- the backend: `recvBatchedTensor`
  | .recvBatchedTensor, st =>
      match st.input, st.toBackend.recv (Data.recvBatchedTensor cfg) with
      | .idle, some (job, s) => some { st with input := .received job, toBackend := s }
      | _, _ => none
  | .lockInput, st =>
      match st.input, st.control with
      | .received job, false =>
          some { st with input := .sending job, toProxy := st.toProxy.send (sendRequest job) }
      | _, _ => none
  | .putToProxy, st => st.toProxy.put.map fun s => { st with toProxy := s }
  | .unlockInput, st =>
      match st.input, st.toProxy.writing with
      | .sending job, [] => some { st with input := .sent job }
      | _, _ => none
  | .pushAwaiting, st =>
      match st.input with
      | .sent job =>
          some { st with
            input := .idle
            awaiting := st.awaiting ++ [(job.rid, job.tensor.batchSize)] }
      | _ => none
  -- the backend: control threads
  | .makeProxyLoadModel modelID batchSize, st =>
      if st.proxyMtxFree then
        some { st with
          control := true
          toProxy := st.toProxy.send (Data.makeProxyLoadModel modelID batchSize) }
      else none
  | .makeProxyUnloadModel modelID, st =>
      if st.proxyMtxFree then
        some { st with
          control := true
          toProxy := st.toProxy.send (Data.makeProxyUnloadModel modelID) }
      else none
  | .unlockControl, st =>
      match st.control, st.toProxy.writing with
      | true, [] => some { st with control := false }
      | _, _ => none
  -- the backend: `sendBatchedOutput`
  | .popAwaiting, st =>
      match st.waiting, st.awaiting, st.toFrontend.writing with
      | none, entry :: queue, [] => some { st with waiting := some entry, awaiting := queue }
      | _, _, _ => none
  | .receiveandsendOutput, st =>
      match st.waiting, st.fromProxy.recv recvOutput with
      | some (_, batchSize), some (output, s) =>
          if output.batchSize = batchSize then
            some { st with
              waiting := none
              fromProxy := s
              toFrontend := st.toFrontend.send (sendOutput output) }
          else some { st with failed := true }
      | _, _ => none
  | .putToFrontend, st => st.toFrontend.put.map fun s => { st with toFrontend := s }
  -- the proxy: `recvInput`
  | .recvInput, st =>
      match st.received, st.toProxy.recv (Data.recvInput cfg) with
      | none, some (msg, s) => some { st with received := some msg, toProxy := s }
      | _, _ => none
  | .pushToQueue, st =>
      match st.received with
      | some (.run job) => some { st with received := none, inputQueue := st.inputQueue ++ [job] }
      | some (.load modelID batchSize) =>
          some { st with
            received := none
            controlQueue := st.controlQueue ++ [.load modelID batchSize] }
      | some (.unload modelID) =>
          some { st with received := none, controlQueue := st.controlQueue ++ [.unload modelID] }
      | some (.strange _) => some { st with received := none }
      -- the thread leaves the loop
      | some .close => none
      | none => none
  -- the proxy: `loadControl`
  | .loadControl, st =>
      match st.controlQueue with
      | .load modelID _ :: queue =>
          some { st with
            controlQueue := queue
            loaded := if modelID ∈ st.loaded then st.loaded else st.loaded ++ [modelID] }
      | .unload modelID :: queue =>
          some { st with controlQueue := queue, loaded := st.loaded.erase modelID }
      | _ => none
  -- the proxy: `compute`
  | .popInput, st =>
      match st.computing, st.inputQueue with
      | none, job :: queue => some { st with computing := some job, inputQueue := queue }
      | _, _ => none
  | .forward, st =>
      match st.computing with
      | some job =>
          let output := cfg.forward job.jid job.tensor
          -- assert(input_batch_size == output_batch_size), of a model that is loaded
          if job.jid ∈ st.loaded ∧ output.batchSize = job.tensor.batchSize then
            some { st with computing := none, proxyOutputs := st.proxyOutputs ++ [(job, output)] }
          else none
      | none => none
  -- the proxy: `send_output`
  | .popProxyOutput, st =>
      match st.proxyOutputs, st.fromProxy.writing with
      | (job, output) :: queue, [] =>
          some { st with
            proxyOutputs := queue
            sent := st.sent ++ [(job, output)]
            fromProxy := st.fromProxy.send (sendOutput output) }
      | _, _ => none
  | .putFromProxy, st => st.fromProxy.put.map fun s => { st with fromProxy := s }

/-! ## The order of the batches -/

/-- The requests among messages to the proxy. -/
def runs (msgs : List ProxyMsg) : List Job :=
  msgs.filterMap fun
    | .run job => some job
    | _ => none

theorem runs_append (msgs msgs' : List ProxyMsg) : runs (msgs ++ msgs') = runs msgs ++ runs msgs' :=
  List.filterMap_append

/-- Read from the frontend, not written to the proxy. -/
def held : InputThread → List Job
  | .received job => [job]
  | _ => []

/-- Written to the proxy, not on the backend's queue. -/
def owed : InputThread → List Job
  | .sending job => [job]
  | .sent job => [job]
  | _ => []

/-- The jobs written to the proxy whose output it has not sent, in order; `msgs`
is what is on the socket. -/
def atProxy (st : Pipeline cfg) (msgs : List ProxyMsg) : List Job :=
  st.proxyOutputs.map Prod.fst ++ (st.computing.toList ++ (st.inputQueue ++
    (runs st.received.toList ++ runs msgs)))

/-- The batches sent to the backend, in order. -/
def batches (st : Pipeline cfg) : List (BatchedRequest cfg) :=
  st.results.map Prod.fst ++ (st.reading.toList ++ st.outputQueue)

/-- An entry of the backend's queue. -/
def entry (job : Job) : Nat × Nat := (job.rid, job.tensor.batchSize)

/-- A batch that can be sent. -/
structure Sendable (b : BatchedRequest cfg) : Prop where
  built : b.Built
  nonempty : b.requests ≠ []
  rows : b.requests.length = b.tensor.batchSize

/-- The messages `m1` to the backend, `m2` to the proxy, `m3` from the proxy and
`m4` to the frontend are on the sockets, and all jobs are in the order in which
their batches were pushed. -/
structure Inv (st : Pipeline cfg) (m1 : List Job) (m2 : List ProxyMsg) (m3 m4 : List Tensor) :
    Prop where
  toBackend : Carries (requests cfg) st.toBackend m1
  toProxy : Carries (proxyInput cfg) st.toProxy m2
  fromProxy : Carries outputs st.fromProxy m3
  toFrontend : Carries outputs st.toFrontend m4
  sendMtx : (∀ b, st.sender ≠ .sending b) → st.toBackend.writing = []
  proxyMtx : st.proxyMtxFree = true → st.toProxy.writing = []
  output : st.waiting ≠ none → st.toFrontend.writing = []
  ready : ∀ b ∈ st.ready, b.Built ∧ b.requests ≠ []
  locked : ∀ b, st.sender = .locked b → Sendable b
  sendable : ∀ b ∈ st.batches, Sendable b
  input : ∀ job ∈ held st.input, job.Complete cfg
  order : st.batches.map BatchedRequest.job =
    st.sent.map Prod.fst ++ (st.atProxy m2 ++ (held st.input ++ m1))
  values : st.sent.map Prod.snd = st.results.map Prod.snd ++ (m4 ++ m3)
  entries : ((st.sent.drop (st.results.length + m4.length)).map Prod.fst ++ st.atProxy m2).map entry =
    st.waiting.toList ++ (st.awaiting ++ (owed st.input).map entry)
  computed : ∀ p ∈ st.sent ++ st.proxyOutputs,
    p.2 = cfg.forward p.1.jid p.1.tensor ∧ p.2.batchSize = p.1.tensor.batchSize
  failed : st.failed = false

theorem inv_start (cfg : ProxyConfig) : Inv (start cfg) [] [] [] [] where
  toBackend := Carries.empty _
  toProxy := Carries.empty _
  fromProxy := Carries.empty _
  toFrontend := Carries.empty _
  sendMtx := fun _ => rfl
  proxyMtx := fun _ => rfl
  output := fun h => absurd rfl h
  ready := fun _ h => nomatch h
  locked := fun _ h => nomatch h
  sendable := fun _ h => nomatch h
  input := fun _ h => nomatch h
  order := rfl
  values := rfl
  entries := rfl
  computed := fun _ h => nomatch h
  failed := rfl

variable {st st' : Pipeline cfg} {m1 : List Job} {m2 : List ProxyMsg} {m3 m4 : List Tensor}

/-! ## Steps of the frontend -/

theorem Inv.batch (h : Inv st m1 m2 m3 m4) {jid maxBatch : Nat} {requests : List (Request cfg)}
    (hstep : step (.batch jid maxBatch requests) st = some st') : Inv st' m1 m2 m3 m4 := by
  simp only [step] at hstep
  split at hstep
  case isFalse => cases hstep
  case isTrue hreq =>
    obtain ⟨b, hbuild, rfl⟩ := Option.map_eq_some_iff.mp hstep
    obtain ⟨hbuilt, -, hjid, hrs⟩ :=
      (BatchedRequest.built_new st.batchTaskID jid maxBatch).foldlM hreq.2 hbuild
    refine { h with ready := ?_ }
    intro b' hb'
    rcases List.mem_cons.mp hb' with rfl | hold
    · refine ⟨hbuilt, ?_⟩
      rw [hrs]
      exact hreq.1
    · exact h.ready b' hold

theorem Inv.lockSend (h : Inv st m1 m2 m3 m4) {batchID : Nat}
    (hstep : step (.lockSend batchID) st = some st') : Inv st' m1 m2 m3 m4 := by
  simp only [step] at hstep
  split at hstep
  case h_2 => cases hstep
  case h_1 b hfree hfind =>
    split at hstep
    case isFalse => cases hstep
    case isTrue hrows =>
      obtain rfl := Option.some.inj hstep
      obtain ⟨hbuilt, hne⟩ := h.ready b (List.mem_of_find?_eq_some hfind)
      refine { h with sendMtx := ?_, ready := ?_, locked := ?_ }
      · intro _
        exact h.sendMtx fun b' hb' => by simp [hfree] at hb'
      · intro b' hb'
        exact h.ready b' (List.mem_of_mem_eraseP hb')
      · intro b' hb'
        obtain rfl := Sender.locked.inj hb'
        exact ⟨hbuilt, hne, hrows⟩

/-- A batch is pushed on the queue and begun to be sent: it is the last in both
orders. -/
theorem Inv.pushOutput (h : Inv st m1 m2 m3 m4) (hstep : step .pushOutput st = some st') :
    ∃ m1', Inv st' m1' m2 m3 m4 := by
  simp only [step] at hstep
  split at hstep
  case h_2 => cases hstep
  case h_1 b hlocked hreading =>
    obtain rfl := Option.some.inj hstep
    have hb := h.locked b hlocked
    have hfree := h.sendMtx fun b' hb' => by simp [hlocked] at hb'
    have hbatches : ({ st with
        sender := .sending b
        outputQueue := st.outputQueue ++ [b]
        toBackend := st.toBackend.send (sendRequestToBackend b.job) } : Pipeline cfg).batches =
        st.batches ++ [b] := by
      simp [batches, hreading]
    refine ⟨m1 ++ [b.job], { h with
      toBackend := h.toBackend.send hfree (hb.built.complete hb.nonempty)
      sendMtx := fun hno => absurd rfl (hno b)
      locked := fun b' hb' => nomatch hb'
      sendable := ?_
      order := ?_ }⟩
    · intro b' hb'
      rw [hbatches] at hb'
      rcases List.mem_append.mp hb' with hold | hnew
      · exact h.sendable b' hold
      · rw [List.mem_singleton.mp hnew]
        exact hb
    · rw [hbatches, List.map_append, h.order]
      simp [atProxy]

theorem Inv.putToBackend (h : Inv st m1 m2 m3 m4) (hstep : step .putToBackend st = some st') :
    Inv st' m1 m2 m3 m4 := by
  obtain ⟨s, hput, rfl⟩ := Option.map_eq_some_iff.mp hstep
  refine { h with toBackend := h.toBackend.put hput, sendMtx := ?_ }
  intro hno
  rw [Stream.put, h.sendMtx hno] at hput
  cases hput

theorem Inv.unlockSend (h : Inv st m1 m2 m3 m4) (hstep : step .unlockSend st = some st') :
    Inv st' m1 m2 m3 m4 := by
  simp only [step] at hstep
  split at hstep
  case h_2 => cases hstep
  case h_1 b hsending hdone =>
    obtain rfl := Option.some.inj hstep
    exact { h with sendMtx := fun _ => hdone, locked := fun b' hb' => nomatch hb' }

theorem Inv.popOutput (h : Inv st m1 m2 m3 m4) (hstep : step .popOutput st = some st') :
    Inv st' m1 m2 m3 m4 := by
  simp only [step] at hstep
  split at hstep
  case h_2 => cases hstep
  case h_1 b queue hreading hqueue =>
    obtain rfl := Option.some.inj hstep
    have hbatches : ({ st with reading := some b, outputQueue := queue } : Pipeline cfg).batches =
        st.batches := by
      simp [batches, hreading, hqueue]
    refine { h with sendable := ?_, order := ?_ }
    · rw [hbatches]
      exact h.sendable
    · rw [hbatches]
      exact h.order

/-- The output at a position of what the proxy has sent is that of the batch at
this position. -/
theorem Inv.output_of_batch (h : Inv st m1 m2 m3 m4) {k : Nat} {b : BatchedRequest cfg}
    {output : Tensor} (hbatch : st.batches[k]? = some b)
    (hsnd : (st.sent.map Prod.snd)[k]? = some output) :
    Sendable b ∧ st.sent[k]? = some (b.job, output) ∧ output = cfg.forward b.jid b.tensor ∧
      output.batchSize = b.requests.length := by
  rw [List.getElem?_map] at hsnd
  obtain ⟨⟨job, out⟩, hsent, rfl⟩ := Option.map_eq_some_iff.mp hsnd
  have hfst : (st.batches.map BatchedRequest.job)[k]? = some job := by
    rw [h.order, List.getElem?_append_left, List.getElem?_map, hsent]
    · rfl
    · rw [List.length_map]
      exact (List.getElem?_eq_some_iff.mp hsent).1
  rw [List.getElem?_map, hbatch] at hfst
  obtain rfl : b.job = job := Option.some.inj hfst
  obtain ⟨hout, hrows⟩ := h.computed _ (List.mem_append_left _ (List.mem_of_getElem? hsent))
  have hb := h.sendable b (List.mem_of_getElem? hbatch)
  exact ⟨hb, hsent, hout, hrows.trans hb.rows.symm⟩

/-- The first output on the socket is that of the batch that is read for. -/
theorem Inv.output_of_reading (h : Inv st m1 m2 m3 m4) {b : BatchedRequest cfg} {output : Tensor}
    {rest : List Tensor} (hreading : st.reading = some b) (hm4 : m4 = output :: rest) :
    output.batchSize = b.requests.length := by
  have hbatch : st.batches[st.results.length]? = some b := by
    rw [batches, hreading, List.getElem?_append_right (by simp)]
    simp
  have hsnd : (st.sent.map Prod.snd)[st.results.length]? = some output := by
    rw [h.values, hm4, List.getElem?_append_right (by simp)]
    simp
  exact (h.output_of_batch hbatch hsnd).2.2.2

theorem Inv.recvResult (h : Inv st m1 m2 m3 m4) (hstep : step .recvResult st = some st') :
    ∃ m4', Inv st' m1 m2 m3 m4' := by
  simp only [step] at hstep
  split at hstep
  case h_2 => cases hstep
  case h_1 b output s hreading hrecv =>
    obtain ⟨hwriting, rest, hm4, hrest⟩ := h.toFrontend.recv hrecv
    rw [if_pos (h.output_of_reading hreading hm4)] at hstep
    obtain rfl := Option.some.inj hstep
    have hbatches : ({ st with
        reading := none
        results := st.results ++ [(b, output)]
        toFrontend := s } : Pipeline cfg).batches = st.batches := by
      simp [batches, hreading]
    refine ⟨rest, { h with
      toFrontend := hrest
      output := fun hw => hwriting.trans (h.output hw)
      sendable := ?_
      order := ?_
      values := ?_
      entries := ?_ }⟩
    · rw [hbatches]
      exact h.sendable
    · rw [hbatches]
      exact h.order
    · have hvalues := h.values
      rw [hm4] at hvalues
      simpa using hvalues
    · have hentries := h.entries
      rw [hm4, List.length_cons, Nat.add_comm rest.length, ← Nat.add_assoc] at hentries
      simpa [atProxy] using hentries

/-! ## Steps of the backend -/

theorem Inv.recvBatchedTensor (h : Inv st m1 m2 m3 m4)
    (hstep : step .recvBatchedTensor st = some st') : ∃ m1', Inv st' m1' m2 m3 m4 := by
  simp only [step] at hstep
  split at hstep
  case h_2 => cases hstep
  case h_1 job s hidle hrecv =>
    obtain rfl := Option.some.inj hstep
    obtain ⟨hwriting, rest, hm1, hrest⟩ := h.toBackend.recv hrecv
    refine ⟨rest, { h with
      toBackend := hrest
      sendMtx := fun hno => hwriting.trans (h.sendMtx hno)
      proxyMtx := ?_
      input := ?_
      order := ?_
      entries := ?_ }⟩
    · intro hfree
      refine h.proxyMtx ?_
      simpa [proxyMtxFree, hidle] using hfree
    · intro job' hjob'
      obtain rfl := List.mem_singleton.mp hjob'
      exact h.toBackend.valid job' (hm1 ▸ List.mem_cons_self)
    · have horder := h.order
      rw [hidle, hm1] at horder
      simpa [held, atProxy, batches] using horder
    · have hentries := h.entries
      rw [hidle] at hentries
      exact hentries

theorem Inv.lockInput (h : Inv st m1 m2 m3 m4) (hstep : step .lockInput st = some st') :
    ∃ m2', Inv st' m1 m2' m3 m4 := by
  simp only [step] at hstep
  split at hstep
  case h_2 => cases hstep
  case h_1 job hreceived hcontrol =>
    obtain rfl := Option.some.inj hstep
    have hfree := h.proxyMtx (by simp [proxyMtxFree, hreceived, hcontrol])
    have hvalid : (proxyInput cfg).Valid (.run job) := h.input job (by simp [hreceived, held])
    refine ⟨m2 ++ [ProxyMsg.run job], { h with
      toProxy := h.toProxy.send hfree hvalid
      proxyMtx := ?_
      input := fun _ hjob => nomatch hjob
      order := ?_
      entries := ?_ }⟩
    · intro hno
      simp [proxyMtxFree] at hno
    · have horder := h.order
      rw [hreceived] at horder
      simpa [held, atProxy, batches, runs] using horder
    · have hentries := h.entries
      rw [hreceived] at hentries
      simp only [owed, List.map_nil, List.append_nil] at hentries
      simp only [owed, atProxy, runs, List.filterMap_append, List.map_append] at hentries ⊢
      simp only [← List.append_assoc] at hentries ⊢
      rw [hentries]
      simp

theorem Inv.putToProxy (h : Inv st m1 m2 m3 m4) (hstep : step .putToProxy st = some st') :
    Inv st' m1 m2 m3 m4 := by
  obtain ⟨s, hput, rfl⟩ := Option.map_eq_some_iff.mp hstep
  refine { h with toProxy := h.toProxy.put hput, proxyMtx := ?_ }
  intro hfree
  rw [Stream.put, h.proxyMtx hfree] at hput
  cases hput

theorem Inv.unlockInput (h : Inv st m1 m2 m3 m4) (hstep : step .unlockInput st = some st') :
    Inv st' m1 m2 m3 m4 := by
  simp only [step] at hstep
  split at hstep
  case h_2 => cases hstep
  case h_1 job hsending hdone =>
    obtain rfl := Option.some.inj hstep
    have horder := h.order
    have hentries := h.entries
    rw [hsending] at horder hentries
    exact { h with
      proxyMtx := fun _ => hdone
      input := fun _ hjob => nomatch hjob
      order := horder
      entries := hentries }

theorem Inv.pushAwaiting (h : Inv st m1 m2 m3 m4) (hstep : step .pushAwaiting st = some st') :
    Inv st' m1 m2 m3 m4 := by
  simp only [step] at hstep
  split at hstep
  case h_2 => cases hstep
  case h_1 job hsent =>
    obtain rfl := Option.some.inj hstep
    refine { h with
      proxyMtx := ?_
      input := fun _ hjob => nomatch hjob
      order := ?_
      entries := ?_ }
    · intro hfree
      refine h.proxyMtx ?_
      simpa [proxyMtxFree, hsent] using hfree
    · have horder := h.order
      rw [hsent] at horder
      exact horder
    · have hentries := h.entries
      rw [hsent] at hentries
      simpa [owed, atProxy, entry] using hentries

/-- A control message changes no order. -/
theorem Inv.controlMsg (h : Inv st m1 m2 m3 m4) {msg : ProxyMsg} (hmsg : msg.Valid cfg)
    (hruns : runs [msg] = []) (hfree : st.proxyMtxFree = true) :
    Inv { st with control := true, toProxy := st.toProxy.send msg.encode } m1 (m2 ++ [msg]) m3 m4 := by
  have hat : runs (m2 ++ [msg]) = runs m2 := by
    rw [runs_append, hruns, List.append_nil]
  refine { h with
    toProxy := h.toProxy.send (h.proxyMtx hfree) hmsg
    proxyMtx := ?_
    order := ?_
    entries := ?_ }
  · intro hno
    simp [proxyMtxFree] at hno
  · have horder := h.order
    simp only [atProxy] at horder ⊢
    rw [hat]
    exact horder
  · have hentries := h.entries
    simp only [atProxy] at hentries ⊢
    rw [hat]
    exact hentries

theorem Inv.makeProxyLoadModel (h : Inv st m1 m2 m3 m4) {modelID batchSize : Nat}
    (hstep : step (.makeProxyLoadModel modelID batchSize) st = some st') :
    ∃ m2', Inv st' m1 m2' m3 m4 := by
  simp only [step] at hstep
  split at hstep
  case isFalse => cases hstep
  case isTrue hfree =>
    obtain rfl := Option.some.inj hstep
    exact ⟨_, h.controlMsg (show (ProxyMsg.load modelID batchSize).Valid cfg from trivial) rfl hfree⟩

theorem Inv.makeProxyUnloadModel (h : Inv st m1 m2 m3 m4) {modelID : Nat}
    (hstep : step (.makeProxyUnloadModel modelID) st = some st') :
    ∃ m2', Inv st' m1 m2' m3 m4 := by
  simp only [step] at hstep
  split at hstep
  case isFalse => cases hstep
  case isTrue hfree =>
    obtain rfl := Option.some.inj hstep
    exact ⟨_, h.controlMsg (show (ProxyMsg.unload modelID).Valid cfg from trivial) rfl hfree⟩

theorem Inv.unlockControl (h : Inv st m1 m2 m3 m4) (hstep : step .unlockControl st = some st') :
    Inv st' m1 m2 m3 m4 := by
  simp only [step] at hstep
  split at hstep
  case h_2 => cases hstep
  case h_1 hcontrol hdone =>
    obtain rfl := Option.some.inj hstep
    exact { h with proxyMtx := fun _ => hdone }

theorem Inv.popAwaiting (h : Inv st m1 m2 m3 m4) (hstep : step .popAwaiting st = some st') :
    Inv st' m1 m2 m3 m4 := by
  simp only [step] at hstep
  split at hstep
  case h_2 => cases hstep
  case h_1 e queue hwaiting hawaiting hdone =>
    obtain rfl := Option.some.inj hstep
    refine { h with output := fun _ => hdone, entries := ?_ }
    have hentries := h.entries
    rw [hwaiting, hawaiting] at hentries
    exact hentries

/-- The first output from the proxy has the batch size the backend waits for. -/
theorem Inv.output_of_waiting (h : Inv st m1 m2 m3 m4) {rid batchSize : Nat} {output : Tensor}
    {rest : List Tensor} (hwaiting : st.waiting = some (rid, batchSize)) (hm3 : m3 = output :: rest) :
    ∃ job, st.sent[st.results.length + m4.length]? = some (job, output) ∧
      entry job = (rid, batchSize) ∧ output.batchSize = batchSize := by
  have hsnd : (st.sent.map Prod.snd)[st.results.length + m4.length]? = some output := by
    rw [h.values, hm3, ← List.append_assoc, List.getElem?_append_right (by simp)]
    simp
  rw [List.getElem?_map] at hsnd
  obtain ⟨⟨job, out⟩, hsent, rfl⟩ := Option.map_eq_some_iff.mp hsnd
  obtain ⟨hlt, hget⟩ := List.getElem?_eq_some_iff.mp hsent
  have hentries := h.entries
  rw [List.drop_eq_getElem_cons hlt, hget, hwaiting] at hentries
  obtain ⟨hentry, -⟩ := List.cons.inj hentries
  refine ⟨job, hsent, hentry, ?_⟩
  rw [(h.computed _ (List.mem_append_left _ (List.mem_of_getElem? hsent))).2]
  exact congrArg Prod.snd hentry

theorem Inv.receiveandsendOutput (h : Inv st m1 m2 m3 m4)
    (hstep : step .receiveandsendOutput st = some st') : ∃ m3' m4', Inv st' m1 m2 m3' m4' := by
  simp only [step] at hstep
  split at hstep
  case h_2 => cases hstep
  case h_1 rid batchSize output s hwaiting hrecv =>
    obtain ⟨hwriting, rest, hm3, hrest⟩ := h.fromProxy.recv hrecv
    obtain ⟨job, hsent, hentry, hrows⟩ := h.output_of_waiting hwaiting hm3
    rw [if_pos hrows] at hstep
    obtain rfl := Option.some.inj hstep
    have hvalid : outputs.Valid output := h.fromProxy.valid output (hm3 ▸ List.mem_cons_self)
    refine ⟨rest, m4 ++ [output], { h with
      fromProxy := hrest
      toFrontend := h.toFrontend.send (h.output (by simp [hwaiting])) hvalid
      output := fun hno => absurd rfl hno
      values := ?_
      entries := ?_ }⟩
    · have hvalues := h.values
      rw [hm3] at hvalues
      simpa using hvalues
    · obtain ⟨hlt, hget⟩ := List.getElem?_eq_some_iff.mp hsent
      have hentries := h.entries
      rw [List.drop_eq_getElem_cons hlt, hget, hwaiting] at hentries
      obtain ⟨-, hrestEntries⟩ := List.cons.inj hentries
      rw [List.length_append, List.length_singleton, ← Nat.add_assoc]
      exact hrestEntries

theorem Inv.putToFrontend (h : Inv st m1 m2 m3 m4) (hstep : step .putToFrontend st = some st') :
    Inv st' m1 m2 m3 m4 := by
  obtain ⟨s, hput, rfl⟩ := Option.map_eq_some_iff.mp hstep
  refine { h with toFrontend := h.toFrontend.put hput, output := ?_ }
  intro hwaiting
  rw [Stream.put, h.output hwaiting] at hput
  cases hput

/-! ## Steps of the proxy -/

theorem Inv.recvInput (h : Inv st m1 m2 m3 m4) (hstep : step .recvInput st = some st') :
    ∃ m2', Inv st' m1 m2' m3 m4 := by
  simp only [step] at hstep
  split at hstep
  case h_2 => cases hstep
  case h_1 msg s hreceived hrecv =>
    obtain rfl := Option.some.inj hstep
    obtain ⟨hwriting, rest, hm2, hrest⟩ := h.toProxy.recv hrecv
    have hat : ({ st with received := some msg, toProxy := s } : Pipeline cfg).atProxy rest =
        st.atProxy m2 := by
      have hcons : runs (msg :: rest) = runs [msg] ++ runs rest := runs_append [msg] rest
      simp only [atProxy, hreceived, hm2, hcons, Option.toList_some, Option.toList_none]
      rfl
    refine ⟨rest, { h with
      toProxy := hrest
      proxyMtx := fun hfree => hwriting.trans (h.proxyMtx hfree)
      order := ?_
      entries := ?_ }⟩
    · rw [hat]
      exact h.order
    · rw [hat]
      exact h.entries

theorem Inv.pushToQueue (h : Inv st m1 m2 m3 m4) (hstep : step .pushToQueue st = some st') :
    Inv st' m1 m2 m3 m4 := by
  have horder := h.order
  have hentries := h.entries
  simp only [atProxy] at horder hentries
  simp only [step] at hstep
  split at hstep
  case h_1 job hreceived =>
    obtain rfl := Option.some.inj hstep
    rw [hreceived] at horder hentries
    refine { h with order := ?_, entries := ?_ }
    · simpa [atProxy, runs, batches] using horder
    · simpa [atProxy, runs] using hentries
  case h_2 hreceived =>
    obtain rfl := Option.some.inj hstep
    rw [hreceived] at horder hentries
    exact { h with order := horder, entries := hentries }
  case h_3 hreceived =>
    obtain rfl := Option.some.inj hstep
    rw [hreceived] at horder hentries
    exact { h with order := horder, entries := hentries }
  case h_4 hreceived =>
    obtain rfl := Option.some.inj hstep
    rw [hreceived] at horder hentries
    exact { h with order := horder, entries := hentries }
  case h_5 => cases hstep
  case h_6 => cases hstep

theorem Inv.loadControl (h : Inv st m1 m2 m3 m4) (hstep : step .loadControl st = some st') :
    Inv st' m1 m2 m3 m4 := by
  simp only [step] at hstep
  split at hstep
  case h_1 =>
    obtain rfl := Option.some.inj hstep
    exact { h with }
  case h_2 =>
    obtain rfl := Option.some.inj hstep
    exact { h with }
  case h_3 => cases hstep

theorem Inv.popInput (h : Inv st m1 m2 m3 m4) (hstep : step .popInput st = some st') :
    Inv st' m1 m2 m3 m4 := by
  simp only [step] at hstep
  split at hstep
  case h_2 => cases hstep
  case h_1 job queue hcomputing hqueue =>
    obtain rfl := Option.some.inj hstep
    have hat : ({ st with computing := some job, inputQueue := queue } : Pipeline cfg).atProxy m2 =
        st.atProxy m2 := by
      simp [atProxy, hcomputing, hqueue]
    refine { h with order := ?_, entries := ?_ }
    · rw [hat]
      exact h.order
    · rw [hat]
      exact h.entries

theorem Inv.forward (h : Inv st m1 m2 m3 m4) (hstep : step .forward st = some st') :
    Inv st' m1 m2 m3 m4 := by
  simp only [step] at hstep
  split at hstep
  case h_2 => cases hstep
  case h_1 job hcomputing =>
    split at hstep
    case isFalse => cases hstep
    case isTrue hok =>
      obtain rfl := Option.some.inj hstep
      have hat : ({ st with
          computing := none
          proxyOutputs := st.proxyOutputs ++ [(job, cfg.forward job.jid job.tensor)]
          } : Pipeline cfg).atProxy m2 = st.atProxy m2 := by
        simp [atProxy, hcomputing]
      refine { h with order := ?_, entries := ?_, computed := ?_ }
      · rw [hat]
        exact h.order
      · rw [hat]
        exact h.entries
      · intro p hp
        rw [← List.append_assoc] at hp
        rcases List.mem_append.mp hp with hold | hnew
        · exact h.computed p hold
        · rw [List.mem_singleton.mp hnew]
          exact ⟨rfl, hok.2⟩

theorem Inv.popProxyOutput (h : Inv st m1 m2 m3 m4) (hstep : step .popProxyOutput st = some st') :
    ∃ m3', Inv st' m1 m2 m3' m4 := by
  simp only [step] at hstep
  split at hstep
  case h_2 => cases hstep
  case h_1 job output queue hqueue hdone =>
    obtain rfl := Option.some.inj hstep
    have hout : output = cfg.forward job.jid job.tensor :=
      (h.computed (job, output) (by simp [hqueue])).1
    have hvalid : outputs.Valid output := by
      rw [hout]
      exact cfg.forward_full _ _
    have hle : st.results.length + m4.length ≤ st.sent.length := by
      have hlen := congrArg List.length h.values
      simp only [List.length_map, List.length_append] at hlen
      omega
    refine ⟨m3 ++ [output], { h with
      fromProxy := h.fromProxy.send hdone hvalid
      order := ?_
      values := ?_
      entries := ?_
      computed := ?_ }⟩
    · have horder := h.order
      simp only [atProxy, hqueue] at horder ⊢
      simpa [batches] using horder
    · have hvalues := h.values
      simp [hvalues]
    · have hentries := h.entries
      simp only [atProxy, hqueue] at hentries ⊢
      rw [List.drop_append_of_le_length hle]
      simpa using hentries
    · have hcomputed := h.computed
      rw [hqueue] at hcomputed
      simpa using hcomputed

theorem Inv.putFromProxy (h : Inv st m1 m2 m3 m4) (hstep : step .putFromProxy st = some st') :
    Inv st' m1 m2 m3 m4 := by
  obtain ⟨s, hput, rfl⟩ := Option.map_eq_some_iff.mp hstep
  exact { h with fromProxy := h.fromProxy.put hput }

/-! ## Runs -/

theorem Inv.step (h : Inv st m1 m2 m3 m4) {act : Act cfg} (hstep : step act st = some st') :
    ∃ m1' m2' m3' m4', Inv st' m1' m2' m3' m4' := by
  cases act with
  | batch jid maxBatch requests => exact ⟨m1, m2, m3, m4, h.batch hstep⟩
  | lockSend batchID => exact ⟨m1, m2, m3, m4, h.lockSend hstep⟩
  | pushOutput =>
      obtain ⟨m1', h'⟩ := h.pushOutput hstep
      exact ⟨m1', m2, m3, m4, h'⟩
  | putToBackend => exact ⟨m1, m2, m3, m4, h.putToBackend hstep⟩
  | unlockSend => exact ⟨m1, m2, m3, m4, h.unlockSend hstep⟩
  | popOutput => exact ⟨m1, m2, m3, m4, h.popOutput hstep⟩
  | recvResult =>
      obtain ⟨m4', h'⟩ := h.recvResult hstep
      exact ⟨m1, m2, m3, m4', h'⟩
  | recvBatchedTensor =>
      obtain ⟨m1', h'⟩ := h.recvBatchedTensor hstep
      exact ⟨m1', m2, m3, m4, h'⟩
  | lockInput =>
      obtain ⟨m2', h'⟩ := h.lockInput hstep
      exact ⟨m1, m2', m3, m4, h'⟩
  | makeProxyLoadModel modelID batchSize =>
      obtain ⟨m2', h'⟩ := h.makeProxyLoadModel hstep
      exact ⟨m1, m2', m3, m4, h'⟩
  | makeProxyUnloadModel modelID =>
      obtain ⟨m2', h'⟩ := h.makeProxyUnloadModel hstep
      exact ⟨m1, m2', m3, m4, h'⟩
  | putToProxy => exact ⟨m1, m2, m3, m4, h.putToProxy hstep⟩
  | unlockInput => exact ⟨m1, m2, m3, m4, h.unlockInput hstep⟩
  | unlockControl => exact ⟨m1, m2, m3, m4, h.unlockControl hstep⟩
  | pushAwaiting => exact ⟨m1, m2, m3, m4, h.pushAwaiting hstep⟩
  | popAwaiting => exact ⟨m1, m2, m3, m4, h.popAwaiting hstep⟩
  | receiveandsendOutput =>
      obtain ⟨m3', m4', h'⟩ := h.receiveandsendOutput hstep
      exact ⟨m1, m2, m3', m4', h'⟩
  | putToFrontend => exact ⟨m1, m2, m3, m4, h.putToFrontend hstep⟩
  | recvInput =>
      obtain ⟨m2', h'⟩ := h.recvInput hstep
      exact ⟨m1, m2', m3, m4, h'⟩
  | pushToQueue => exact ⟨m1, m2, m3, m4, h.pushToQueue hstep⟩
  | loadControl => exact ⟨m1, m2, m3, m4, h.loadControl hstep⟩
  | popInput => exact ⟨m1, m2, m3, m4, h.popInput hstep⟩
  | forward => exact ⟨m1, m2, m3, m4, h.forward hstep⟩
  | popProxyOutput =>
      obtain ⟨m3', h'⟩ := h.popProxyOutput hstep
      exact ⟨m1, m2, m3', m4, h'⟩
  | putFromProxy => exact ⟨m1, m2, m3, m4, h.putFromProxy hstep⟩

theorem inv_run {acts : List (Act cfg)}
    (hrun : Machine.run step acts (start cfg) = some st) : ∃ m1 m2 m3 m4, Inv st m1 m2 m3 m4 := by
  refine Machine.run_invariant (I := fun st => ∃ m1 m2 m3 m4, Inv st m1 m2 m3 m4) ?_ hrun
    ⟨[], [], [], [], inv_start cfg⟩
  rintro act s s' ⟨m1, m2, m3, m4, h⟩ hstep
  exact h.step hstep

/-- What was read for a batch. -/
theorem Inv.result (h : Inv st m1 m2 m3 m4) {k : Nat} {b : BatchedRequest cfg} {output : Tensor}
    (hk : st.results[k]? = some (b, output)) :
    Sendable b ∧ st.sent[k]? = some (b.job, output) ∧ output = cfg.forward b.jid b.tensor ∧
      output.batchSize = b.requests.length := by
  obtain ⟨hlt, -⟩ := List.getElem?_eq_some_iff.mp hk
  have hbatch : st.batches[k]? = some b := by
    rw [batches, List.getElem?_append_left (by simpa using hlt), List.getElem?_map, hk]
    rfl
  have hsnd : (st.sent.map Prod.snd)[k]? = some output := by
    rw [h.values, List.getElem?_append_left (by simpa using hlt), List.getElem?_map, hk]
    rfl
  exact h.output_of_batch hbatch hsnd

end Pipeline

end Glet.Data
