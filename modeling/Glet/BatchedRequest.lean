import Glet.Wire
import Mathlib.Algebra.BigOperators.Group.List.Basic
import Mathlib.Tactic.Ring

/-!
# Batched requests and their messages

Requests for a model are concatenated into one tensor, sent to the backend and
from there to the proxy; the output comes back the same way and is split among
the requests. This module has the tensors, the batch, and what is written on
and read from each of the sockets.

Tensors are row-major, so that concatenating along the first dimension appends
the data, and a slice along it is a range of the data. The unit of data is the
32-bit word: an `int`, a float or half an `int64_t`.
-/

namespace Glet.Data

abbrev Word := Nat

/-! ## Tensors -/

structure Tensor where
  sizes : List Nat
  data : List Word
  deriving DecidableEq

namespace Tensor

/-- `size(0)`. -/
def batchSize (t : Tensor) : Nat := t.sizes.headD 0

/-- `torch::cat({a, b}, 0)`. -/
def cat (a b : Tensor) : Tensor where
  sizes := (a.batchSize + b.batchSize) :: a.sizes.tail
  data := a.data ++ b.data

/-- One of the tensors of `split(1, 0)`. -/
def slice (t : Tensor) (i : Nat) : Tensor where
  sizes := 1 :: t.sizes.tail
  data := (t.data.drop (i * (t.data.length / t.batchSize))).take (t.data.length / t.batchSize)

/-- `split(1, 0)`. -/
def split (t : Tensor) : List Tensor := (List.range t.batchSize).map t.slice

end Tensor

inductive DataType where
  | fp32
  | int64
  deriving DecidableEq

/-- The words of one element. -/
def DataType.words : DataType → Nat
  | .fp32 => 1
  | .int64 => 2

/-- `proxy_config.json`, which the backend and the proxy read, and the models.
Tensors have at most four dimensions, the batch included, and the output of a
model is a tensor of floats. -/
structure ProxyConfig where
  inputDim : Nat → List Nat
  inputType : Nat → DataType
  forward : Nat → Tensor → Tensor
  inputDim_length : ∀ jid, (inputDim jid).length ≤ 3
  forward_full : ∀ jid t, (forward jid t).data.length = (forward jid t).sizes.prod

/-! ## Requests -/

/-- A request for a model: a tensor of the model's type and dimensions. -/
structure Request (cfg : ProxyConfig) where
  reqID : Nat
  jid : Nat
  input : Tensor
  rows_pos : 0 < input.batchSize
  sizes : input.sizes = input.batchSize :: cfg.inputDim jid
  full : input.data.length = (cfg.inputType jid).words * input.sizes.prod

variable {cfg : ProxyConfig}

/-- `addtoModelQueue` makes every request with a batch number of 1. -/
def Request.getBatchNum (_ : Request cfg) : Nat := 1

structure BatchedRequest (cfg : ProxyConfig) where
  batchID : Nat
  jid : Nat
  maxBatch : Nat
  requests : List (Request cfg)
  batchNum : Nat
  tensor : Tensor

namespace BatchedRequest

def new (cfg : ProxyConfig) (batchID jid maxBatch : Nat) : BatchedRequest cfg where
  batchID := batchID
  jid := jid
  maxBatch := maxBatch
  requests := []
  batchNum := 0
  tensor := ⟨[], []⟩

/-- `addRequestInfo`; `none` is its `exit(1)`. -/
def addRequestInfo (b : BatchedRequest cfg) (r : Request cfg) : Option (BatchedRequest cfg) :=
  if b.requests.length > b.maxBatch then none
  else
    let batchNum := b.batchNum + r.getBatchNum
    some { b with
      requests := b.requests ++ [r]
      batchNum
      tensor := if batchNum = 1 then r.input else b.tensor.cat r.input }

/-- What a batch of requests for one model holds. -/
structure Built (b : BatchedRequest cfg) : Prop where
  model : ∀ r ∈ b.requests, r.jid = b.jid
  batchNum : b.batchNum = b.requests.length
  data : b.tensor.data = b.requests.flatMap fun r => r.input.data
  sizes : b.requests ≠ [] →
    b.tensor.sizes = (b.requests.map fun r => r.input.batchSize).sum :: cfg.inputDim b.jid

theorem built_new (batchID jid maxBatch : Nat) : (new cfg batchID jid maxBatch).Built :=
  ⟨(fun _ h => nomatch h), rfl, rfl, fun h => absurd rfl h⟩

theorem Built.addRequestInfo {b b' : BatchedRequest cfg} (h : b.Built) {r : Request cfg}
    (hr : r.jid = b.jid) (hadd : b.addRequestInfo r = some b') :
    b'.Built ∧ b'.batchID = b.batchID ∧ b'.jid = b.jid ∧ b'.requests = b.requests ++ [r] := by
  unfold BatchedRequest.addRequestInfo at hadd
  split at hadd
  case isTrue => cases hadd
  case isFalse =>
    obtain rfl := Option.some.inj hadd
    refine ⟨⟨?_, ?_, ?_, ?_⟩, rfl, rfl, rfl⟩
    · intro r' hr'
      rcases List.mem_append.mp hr' with hold | hnew
      · exact h.model r' hold
      · rw [List.mem_singleton.mp hnew]
        exact hr
    · simp [Request.getBatchNum, h.batchNum]
    · by_cases hnil : b.requests = []
      · simp [Request.getBatchNum, h.batchNum, hnil]
      · simp [Request.getBatchNum, h.batchNum, hnil, Tensor.cat, h.data]
    · intro _
      by_cases hnil : b.requests = []
      · simp only [Request.getBatchNum, h.batchNum, hnil, List.length_nil, Nat.zero_add, if_true,
          List.nil_append, List.map_cons, List.map_nil, List.sum_cons, List.sum_nil, Nat.add_zero]
        rw [← hr]
        exact r.sizes
      · simp [Request.getBatchNum, h.batchNum, hnil, Tensor.cat, Tensor.batchSize, h.sizes hnil]

/-- The loop of `initProxy` over the requests it takes from the model's queue. -/
def build (cfg : ProxyConfig) (batchID jid maxBatch : Nat) (requests : List (Request cfg)) :
    Option (BatchedRequest cfg) :=
  requests.foldlM addRequestInfo (new cfg batchID jid maxBatch)

theorem Built.foldlM {requests : List (Request cfg)} {b b' : BatchedRequest cfg} (h : b.Built)
    (hmodel : ∀ r ∈ requests, r.jid = b.jid)
    (hfold : requests.foldlM BatchedRequest.addRequestInfo b = some b') :
    b'.Built ∧ b'.batchID = b.batchID ∧ b'.jid = b.jid ∧ b'.requests = b.requests ++ requests := by
  induction requests generalizing b with
  | nil =>
      obtain rfl := Option.some.inj hfold
      exact ⟨h, rfl, rfl, by simp⟩
  | cons r rs ih =>
      rw [List.foldlM_cons] at hfold
      obtain ⟨b1, hadd, hrest⟩ := Option.bind_eq_some_iff.mp hfold
      obtain ⟨h1, hid, hjid, hreq⟩ := h.addRequestInfo (hmodel r List.mem_cons_self) hadd
      obtain ⟨h2, hid2, hjid2, hreq2⟩ := ih h1
        (fun r' hr' => hjid ▸ hmodel r' (List.mem_cons_of_mem _ hr')) hrest
      refine ⟨h2, hid2.trans hid, hjid2.trans hjid, ?_⟩
      rw [hreq2, hreq, List.append_assoc]
      rfl

/-! ## Positions -/

theorem data_length {jid : Nat} {rs : List (Request cfg)} (hmodel : ∀ r ∈ rs, r.jid = jid) :
    (rs.flatMap fun r => r.input.data).length = (cfg.inputType jid).words *
      ((rs.map fun r => r.input.batchSize).sum * (cfg.inputDim jid).prod) := by
  induction rs with
  | nil => simp
  | cons r rs ih =>
      have hlen := r.full
      rw [r.sizes, List.prod_cons, hmodel r List.mem_cons_self] at hlen
      have hrest := ih fun r' hr' => hmodel r' (List.mem_cons_of_mem _ hr')
      rw [List.flatMap_cons, List.length_append, hlen, hrest, List.map_cons, List.sum_cons]
      ring

/-- The data of a batch is complete. -/
theorem Built.full {b : BatchedRequest cfg} (h : b.Built) (hne : b.requests ≠ []) :
    b.tensor.data.length = (cfg.inputType b.jid).words * b.tensor.sizes.prod := by
  rw [h.data, h.sizes hne, List.prod_cons]
  exact data_length h.model

/-- As many rows as requests, and each has some: each has one. -/
theorem rows_eq_one {rs : List (Request cfg)}
    (hrows : rs.length = (rs.map fun r => r.input.batchSize).sum) :
    ∀ r ∈ rs, r.input.batchSize = 1 := by
  have hle : ∀ l : List (Request cfg), l.length ≤ (l.map fun r => r.input.batchSize).sum := by
    intro l
    induction l with
    | nil => simp
    | cons r l ih =>
        have hpos := r.rows_pos
        simp only [List.length_cons, List.map_cons, List.sum_cons]
        omega
  induction rs with
  | nil => intro r hr; cases hr
  | cons r rs ih =>
      have hpos := r.rows_pos
      have hrest := hle rs
      simp only [List.length_cons, List.map_cons, List.sum_cons] at hrows
      intro r' hr'
      rcases List.mem_cons.mp hr' with rfl | htail
      · omega
      · exact ih (by omega) r' htail

/-- The i-th of equally long pieces. -/
theorem flatMap_piece {α β : Type} {f : α → List β} {len : Nat} {l : List α}
    (hlen : ∀ a ∈ l, (f a).length = len) {i : Nat} {a : α} (ha : l[i]? = some a) :
    ((l.flatMap f).drop (i * len)).take len = f a := by
  induction l generalizing i with
  | nil => cases ha
  | cons b l ih =>
      have hb := hlen b List.mem_cons_self
      rw [List.flatMap_cons]
      cases i with
      | zero =>
          obtain rfl : b = a := by simpa using ha
          simp [← hb]
      | succ i =>
          rw [Nat.add_mul, Nat.one_mul, Nat.add_comm, ← List.drop_drop, ← hb, List.drop_left, hb]
          exact ih (fun a' ha' => hlen a' (List.mem_cons_of_mem _ ha')) (by simpa using ha)

/-- A batch whose tensor has as many rows as there are requests holds at each
position the tensor of the request at that position. -/
theorem Built.slice {b : BatchedRequest cfg} (h : b.Built) (hne : b.requests ≠ [])
    (hrows : b.requests.length = b.tensor.batchSize) {i : Nat} {r : Request cfg}
    (hr : b.requests[i]? = some r) : b.tensor.slice i = r.input := by
  have hsizes := h.sizes hne
  have hbatch : b.tensor.batchSize = (b.requests.map fun r => r.input.batchSize).sum := by
    rw [Tensor.batchSize, hsizes]
    rfl
  have hone := rows_eq_one (hrows.trans hbatch)
  have hlen : ∀ r ∈ b.requests, r.input.data.length =
      (cfg.inputType b.jid).words * (cfg.inputDim b.jid).prod := by
    intro r hr
    have hjid := h.model r hr
    rw [r.full, r.sizes, hone r hr, hjid, List.prod_cons, Nat.one_mul]
  have hpos : 0 < b.requests.length := List.length_pos_of_ne_nil hne
  have hpiece : b.tensor.data.length / b.tensor.batchSize =
      (cfg.inputType b.jid).words * (cfg.inputDim b.jid).prod := by
    rw [h.full hne, hsizes, ← hbatch, List.prod_cons, ← hrows, ← Nat.mul_assoc,
      Nat.mul_comm _ b.requests.length, Nat.mul_assoc, Nat.mul_div_cancel_left _ hpos]
  have hmem := List.mem_of_getElem? hr
  have hdata : (b.tensor.slice i).data = r.input.data := by
    simp only [Tensor.slice, hpiece]
    rw [h.data]
    exact flatMap_piece hlen hr
  have hdims : (b.tensor.slice i).sizes = r.input.sizes := by
    rw [r.sizes, hone r hmem, h.model r hmem]
    simp only [Tensor.slice, hsizes, List.tail_cons]
  cases hin : r.input with
  | mk sizes data =>
      rw [hin] at hdata hdims
      simp only at hdata hdims
      rw [← hdata, ← hdims]

end BatchedRequest

/-! ## Messages to the backend -/

open Wire (Reader Format)
open Wire.Reader

/-- A batch on its way: model id, batch id and input. -/
structure Job where
  jid : Nat
  rid : Nat
  tensor : Tensor
  deriving DecidableEq

def BatchedRequest.job (b : BatchedRequest cfg) : Job := ⟨b.jid, b.batchID, b.tensor⟩

/-- The tensor has the dimensions of its model and all its data. -/
structure Job.Complete (cfg : ProxyConfig) (j : Job) : Prop where
  sizes : j.tensor.sizes = j.tensor.batchSize :: cfg.inputDim j.jid
  full : j.tensor.data.length = (cfg.inputType j.jid).words * j.tensor.sizes.prod

theorem BatchedRequest.Built.complete {b : BatchedRequest cfg} (h : b.Built)
    (hne : b.requests ≠ []) : b.job.Complete cfg := by
  refine ⟨?_, h.full hne⟩
  simp only [BatchedRequest.job, Tensor.batchSize]
  rw [h.sizes hne]
  rfl

/-- What `sendRequestToBackend` writes. -/
def sendRequestToBackend (j : Job) : List Word :=
  [j.jid, j.rid, j.tensor.batchSize] ++ j.tensor.data

def recvBatchedTensor (cfg : ProxyConfig) : Reader Word Job := do
  let jid ← word
  let rid ← word
  let batchSize ← word
  let dims := batchSize :: cfg.inputDim jid
  let data ← words ((cfg.inputType jid).words * dims.prod)
  pure ⟨jid, rid, ⟨dims, data⟩⟩

/-- The socket from the frontend to the backend. -/
def requests (cfg : ProxyConfig) : Format Word Job where
  Valid := Job.Complete cfg
  encode := sendRequestToBackend
  reader := recvBatchedTensor cfg
  stable := extends_word.bind fun _ => extends_word.bind fun _ => extends_word.bind fun _ =>
    (extends_words _).bind fun _ => extends_pure _
  waits := rfl
  reads := by
    intro j rest hj
    have hdata := words_append (hj.full.trans (by rw [hj.sizes])) rest
    have htensor : (⟨j.tensor.batchSize :: cfg.inputDim j.jid, j.tensor.data⟩ : Tensor) =
      j.tensor := by rw [← hj.sizes]
    calc recvBatchedTensor cfg (sendRequestToBackend j ++ rest)
        = (words ((cfg.inputType j.jid).words * (j.tensor.batchSize :: cfg.inputDim j.jid).prod) >>=
            fun data => pure ⟨j.jid, j.rid, ⟨j.tensor.batchSize :: cfg.inputDim j.jid, data⟩⟩ :
            Reader Word Job) (j.tensor.data ++ rest) := rfl
      _ = some (⟨j.jid, j.rid, ⟨j.tensor.batchSize :: cfg.inputDim j.jid, j.tensor.data⟩⟩, rest) :=
          bind_of_eq hdata
      _ = some (j, rest) := by rw [htensor]

/-! ## Messages to the proxy -/

def CLOSE_SOCKET : Word := 25301
def LOAD_MODEL : Word := 2251
def UNLOAD_MODEL : Word := 8297

/-- What the proxy reads: a request, a control message, a length it does not
know, or the end. -/
inductive ProxyMsg where
  | run (job : Job)
  | load (modelID batchSize : Nat)
  | unload (modelID : Nat)
  | strange (dimlen : Nat)
  | close
  deriving DecidableEq

/-- What `sendRequest` writes. -/
def sendRequest (j : Job) : List Word :=
  [j.tensor.sizes.length, j.jid] ++ (j.tensor.sizes ++ ([j.rid, j.tensor.sizes.prod] ++ j.tensor.data))

/-- What `makeProxyLoadModel` writes. -/
def makeProxyLoadModel (modelID batchSize : Nat) : List Word := [LOAD_MODEL, modelID, batchSize]

/-- What `makeProxyUnloadModel` writes. -/
def makeProxyUnloadModel (modelID : Nat) : List Word := [UNLOAD_MODEL, modelID]

/-- One turn of the loop of `recvInput`. -/
def recvInput (cfg : ProxyConfig) : Reader Word ProxyMsg := do
  let dimlen ← word
  if dimlen = CLOSE_SOCKET then pure .close
  else if dimlen = LOAD_MODEL then do
    let modelID ← word
    let batchSize ← word
    pure (.load modelID batchSize)
  else if dimlen = UNLOAD_MODEL then do
    let modelID ← word
    pure (.unload modelID)
  else if 4 < dimlen then pure (.strange dimlen)
  else if dimlen ≠ 0 then do
    let jid ← word
    let dims ← words dimlen
    let rid ← word
    let datalen ← word
    let data ← words ((cfg.inputType jid).words * datalen)
    pure (.run ⟨jid, rid, ⟨dims, data⟩⟩)
  else pure .close

def ProxyMsg.Valid (cfg : ProxyConfig) : ProxyMsg → Prop
  | .run j => j.Complete cfg
  | .load .. => True
  | .unload _ => True
  | .strange _ => False
  | .close => False

def ProxyMsg.encode : ProxyMsg → List Word
  | .run j => sendRequest j
  | .load modelID batchSize => makeProxyLoadModel modelID batchSize
  | .unload modelID => makeProxyUnloadModel modelID
  | .strange dimlen => [dimlen]
  | .close => [CLOSE_SOCKET]

theorem recvInput_run {j : Job} (hj : j.Complete cfg) (rest : List Word) :
    recvInput cfg (sendRequest j ++ rest) = some (.run j, rest) := by
  have hlen : j.tensor.sizes.length = (cfg.inputDim j.jid).length + 1 := by
    rw [hj.sizes, List.length_cons]
  have hdim := cfg.inputDim_length j.jid
  have hclose : j.tensor.sizes.length ≠ CLOSE_SOCKET := by unfold CLOSE_SOCKET; omega
  have hload : j.tensor.sizes.length ≠ LOAD_MODEL := by unfold LOAD_MODEL; omega
  have hunload : j.tensor.sizes.length ≠ UNLOAD_MODEL := by unfold UNLOAD_MODEL; omega
  have hstrange : ¬ 4 < j.tensor.sizes.length := by omega
  have hzero : j.tensor.sizes.length ≠ 0 := by omega
  have hsizes := words_append (rfl : j.tensor.sizes.length = _)
    (([j.rid, j.tensor.sizes.prod] ++ j.tensor.data) ++ rest)
  have hdata := words_append hj.full rest
  unfold recvInput sendRequest
  simp only [List.cons_append, List.nil_append, List.append_assoc] at hsizes ⊢
  rw [bind_of_eq (word_cons _ _), if_neg hclose, if_neg hload, if_neg hunload, if_neg hstrange,
    if_pos hzero, bind_of_eq (word_cons _ _), bind_of_eq hsizes, bind_of_eq (word_cons _ _),
    bind_of_eq (word_cons _ _), bind_of_eq hdata]
  rfl

/-- The socket from the backend to the proxy. -/
def proxyInput (cfg : ProxyConfig) : Format Word ProxyMsg where
  Valid := ProxyMsg.Valid cfg
  encode := ProxyMsg.encode
  reader := recvInput cfg
  stable := by
    refine extends_word.bind fun dimlen => (extends_pure _).ite (.ite ?_ (.ite ?_
      ((extends_pure _).ite (.ite ?_ (extends_pure _)))))
    · exact extends_word.bind fun _ => extends_word.bind fun _ => extends_pure _
    · exact extends_word.bind fun _ => extends_pure _
    · exact extends_word.bind fun _ => (extends_words _).bind fun _ => extends_word.bind fun _ =>
        extends_word.bind fun _ => (extends_words _).bind fun _ => extends_pure _
  waits := rfl
  reads := by
    intro m rest hm
    cases m with
    | run j => exact recvInput_run hm rest
    | load modelID batchSize => rfl
    | unload modelID => rfl
    | strange dimlen => cases hm
    | close => cases hm

/-! ## Outputs -/

/-- What `send_output` of the proxy and `sendOutput` of the backend write. -/
def sendOutput (t : Tensor) : List Word := t.sizes.length :: (t.sizes ++ t.data)

/-- What `receiveandsendOutput` and `recvResult` read. -/
def recvOutput : Reader Word Tensor := do
  let dim ← word
  let sizes ← words dim
  let data ← words sizes.prod
  pure ⟨sizes, data⟩

/-- The sockets from the proxy to the backend and from there to the frontend. -/
def outputs : Format Word Tensor where
  Valid := fun t => t.data.length = t.sizes.prod
  encode := sendOutput
  reader := recvOutput
  stable := extends_word.bind fun _ => (extends_words _).bind fun _ =>
    (extends_words _).bind fun _ => extends_pure _
  waits := rfl
  reads := by
    intro t rest ht
    have hsizes := words_append (rfl : t.sizes.length = _) (t.data ++ rest)
    have hdata := words_append ht rest
    unfold recvOutput sendOutput
    rw [List.cons_append, bind_of_eq (word_cons _ _), List.append_assoc, bind_of_eq hsizes,
      bind_of_eq hdata]
    rfl

end Glet.Data
