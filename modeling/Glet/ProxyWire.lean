import Glet.BatchedRequest
import Mathlib.Data.BitVec

/-!
# The input socket of a proxy, to the integer

What goes over the input socket of a proxy are 32-bit integers: the first one
tells the kind of a message, and a run request has as many dimensions as it
says. There are two builds. With `NO_NET` a run request ends with its id;
without, the number of elements and the data follow, and how wide an element is
comes from the table of the side that reads.

Here integers have the width they have in C: dimensions are `int64_t` and are
written as `int`, products are computed in `int`, and a number of bytes is an
`int` when it reaches `socket_send` and `socket_receive`. Nothing is lost as
long as the dimensions and the bytes of a request are `int`s. The backend, the
only one who sends requests, has read the batch size and the data of a request
from a socket itself, so they are (`recvBatchedTensor_fits`).
-/

namespace Glet.ProxyWire

open Glet.Data (DataType)
open Wire (Reader)
open Wire.Reader

/-- An `int`. -/
abbrev CInt := BitVec 32

/-- With `NO_NET`, or without. -/
inductive Build where
  | noNet
  | net
  deriving DecidableEq

/-- A run request as it is sent, and as `recvInput` queues it. The data is in
units of 32 bits. -/
structure RunRequest where
  jobID : CInt
  dims : List (BitVec 64)
  reqID : CInt
  payload : Option (DataType × List CInt)
  deriving DecidableEq

inductive Msg where
  | load (modelID batchSize : CInt)
  | unload (modelID : CInt)
  | run (r : RunRequest)
  deriving DecidableEq

def CLOSE_SOCKET : CInt := 25301
def LOAD_MODEL : CInt := 2251
def UNLOAD_MODEL : CInt := 8297

/-! ## Sending -/

/-- `int len = dims[i]`. -/
def toCInt (d : BitVec 64) : CInt := d.setWidth 32

/-- `sock_elts`. -/
def sockElts (dims : List (BitVec 64)) : CInt := dims.foldl (fun elts d => elts * toCInt d) 1

/-- `n * sizeof(float)` or `n * sizeof(int64_t)`, as an `int`. -/
def byteCount (t : DataType) (n : CInt) : CInt := n * (4 * BitVec.ofNat 32 t.words)

/-- The words in a number of bytes; the loops of `socket_send` and
`socket_receive` do nothing if it is negative. -/
def wordCount (bytes : CInt) : Nat := bytes.toInt.toNat / 4

def socketSend (data : List CInt) (bytes : CInt) : List CInt := data.take (wordCount bytes)

def makeProxyLoadModel (modelID batchSize : CInt) : List CInt := [LOAD_MODEL, modelID, batchSize]

def makeProxyUnloadModel (modelID : CInt) : List CInt := [UNLOAD_MODEL, modelID]

def disconnectProxy : List CInt := [CLOSE_SOCKET]

/-- What both overloads of `sendRequest` begin with. -/
def sendHeader (r : RunRequest) : List CInt :=
  [BitVec.ofNat 32 r.dims.length, r.jobID] ++ r.dims.map toCInt ++ [r.reqID]

/-- `sendRequest`, the overload of the build. -/
def sendRequest (r : RunRequest) : Build → List CInt
  | .noNet => sendHeader r
  | .net => sendHeader r ++ sockElts r.dims :: r.payload.elim []
      fun p => socketSend p.2 (byteCount p.1 (sockElts r.dims))

def send (b : Build) : Msg → List CInt
  | .load modelID batchSize => makeProxyLoadModel modelID batchSize
  | .unload modelID => makeProxyUnloadModel modelID
  | .run r => sendRequest r b

/-! ## Receiving -/

/-- What a turn of the loop of `recvInput` comes to. -/
inductive Turn where
  | queue (m : Msg)
  /-- A `dimlen` above 4. -/
  | skip
  | close
  deriving DecidableEq

/-- The data of a run request; `inputType` is `g_mappingIDtoInputDataType`. -/
def recvPayload (inputType : CInt → Option DataType) (jobID : CInt) :
    Build → Reader CInt (Option (DataType × List CInt))
  | .noNet => pure none
  | .net => do
      let datalen ← word
      (inputType jobID).elim (pure none) fun t => do
        let data ← words (wordCount (byteCount t datalen))
        pure (some (t, data))

def recvTurn (inputType : CInt → Option DataType) (b : Build) : Reader CInt Turn := do
  let dimlen ← word
  if dimlen = CLOSE_SOCKET then pure .close
  else if dimlen = LOAD_MODEL then do
    let modelID ← word
    let batchSize ← word
    pure (.queue (.load modelID batchSize))
  else if dimlen = UNLOAD_MODEL then do
    let modelID ← word
    pure (.queue (.unload modelID))
  else if 4 < dimlen.toInt then pure .skip
  else if dimlen ≠ 0 then do
    let jobID ← word
    let dims ← words dimlen.toInt.toNat
    let reqID ← word
    let payload ← recvPayload inputType jobID b
    pure (.queue (.run ⟨jobID, dims.map (BitVec.signExtend 64), reqID, payload⟩))
  else pure .close

/-- The loop of `recvInput`: what it queues and what it leaves on the socket. -/
def recvLoop (inputType : CInt → Option DataType) (b : Build) :
    Nat → List CInt → Option (List Msg × List CInt)
  | 0, _ => none
  | _ + 1, [] => some ([], [])
  | fuel + 1, ws => (recvTurn inputType b ws).bind fun p =>
      match p.1 with
      | .queue m => (recvLoop inputType b fuel p.2).map fun q => (m :: q.1, q.2)
      | .skip => recvLoop inputType b fuel p.2
      | .close => some ([], p.2)

/-- A turn takes an integer at least. -/
def recvInput (inputType : CInt → Option DataType) (b : Build) (ws : List CInt) :
    Option (List Msg × List CInt) :=
  recvLoop inputType b (ws.length + 1) ws

/-! ## Requests that are sent -/

/-- One to four dimensions and, in the build with data, as many elements of the
registered type as they say. -/
structure RunRequest.WellFormed (inputType : CInt → Option DataType) (b : Build) (r : RunRequest) :
    Prop where
  dims_pos : 0 < r.dims.length
  dims_le : r.dims.length ≤ 4
  noNet : b = .noNet → r.payload = none
  net : b = .net → ∃ t data, r.payload = some (t, data) ∧ inputType r.jobID = some t ∧
    (data.length : Int) = t.words * (r.dims.map BitVec.toInt).prod

/-- The dimensions and the number of bytes are `int`s. -/
structure RunRequest.Fits (r : RunRequest) : Prop where
  dims : ∀ d ∈ r.dims, -2 ^ 31 ≤ d.toInt ∧ d.toInt < 2 ^ 31
  bytes : ∀ p ∈ r.payload, 4 * p.2.length < 2 ^ 31

def Msg.WellFormed (inputType : CInt → Option DataType) (b : Build) : Msg → Prop
  | .run r => r.WellFormed inputType b
  | _ => True

def Msg.Fits : Msg → Prop
  | .run r => r.Fits
  | _ => True

/-- `rcvd == Datalen * sizeof(float)`, or `int64_t`, compared as `size_t`. -/
def receivedAll (t : DataType) (datalen : CInt) : Bool :=
  BitVec.ofNat 64 (byteCount t datalen).toInt.toNat =
    datalen.signExtend 64 * BitVec.ofNat 64 (4 * t.words)

/-- The data of a request, of the type that the backend has registered. -/
def recvData (inputType : CInt → Option DataType) (jid datalen : CInt) :
    Build → Reader CInt (Option (DataType × List CInt))
  | .noNet => pure none
  | .net => (inputType jid).elim (pure none) fun t => do
      let data ← words (wordCount (byteCount t datalen))
      if receivedAll t datalen then pure (some (t, data)) else failure

/-- The request that `recvBatchedTensor` of the backend reads and passes to
`sendRequest`; `inputDim` is the table it has read from the configuration. -/
def recvBatchedTensor (inputDim : CInt → List CInt) (inputType : CInt → Option DataType) (b : Build) :
    Reader CInt RunRequest := do
  let jid ← word
  let rid ← word
  let batchSize ← word
  let dims := (batchSize :: inputDim jid).map (BitVec.signExtend 64)
  let payload ← recvData inputType jid (sockElts dims) b
  pure ⟨jid, dims, rid, payload⟩

/-! ## Integers -/

/-- An `int64_t` that is an `int` comes back from the socket. -/
theorem signExtend_toCInt {d : BitVec 64} (h : -2 ^ 31 ≤ d.toInt ∧ d.toInt < 2 ^ 31) :
    (toCInt d).signExtend 64 = d := by
  apply BitVec.eq_of_toInt_eq
  rw [toCInt, BitVec.toInt_signExtend_of_le (by decide), BitVec.toInt_setWidth]
  have hmod : (d.toNat : Int).bmod (2 ^ 32) = d.toInt.bmod (2 ^ 32) := by
    rw [BitVec.toInt_eq_toNat_bmod d, Int.bmod_bmod_of_dvd (by decide)]
  rw [hmod]
  exact Int.bmod_eq_of_le (by omega) (by omega)

theorem toCInt_eq_ofInt (d : BitVec 64) : toCInt d = BitVec.ofInt 32 d.toInt := by
  apply BitVec.eq_of_toInt_eq
  rw [toCInt, BitVec.toInt_setWidth, BitVec.toInt_ofInt, BitVec.toInt_eq_toNat_bmod,
    Int.bmod_bmod_of_dvd (by decide)]

/-- The product is computed modulo 2^32. -/
theorem sockElts_eq (dims : List (BitVec 64)) :
    sockElts dims = BitVec.ofInt 32 (dims.map BitVec.toInt).prod := by
  have hfold : ∀ (l : List (BitVec 64)) (a : Int),
      l.foldl (fun elts d => elts * toCInt d) (BitVec.ofInt 32 a) =
        BitVec.ofInt 32 (a * (l.map BitVec.toInt).prod) := by
    intro l
    induction l with
    | nil => simp
    | cons d l ih =>
        intro a
        rw [List.foldl_cons, toCInt_eq_ofInt, ← BitVec.ofInt_mul, ih, List.map_cons, List.prod_cons,
          mul_assoc]
  have := hfold dims 1
  rw [one_mul] at this
  exact this

/-- A number of bytes that is an `int` is computed as it is. -/
theorem wordCount_byteCount {t : DataType} {dims : List (BitVec 64)} {n : Nat}
    (hn : (n : Int) = t.words * (dims.map BitVec.toInt).prod) (hbytes : 4 * n < 2 ^ 31) :
    wordCount (byteCount t (sockElts dims)) = n := by
  have hcount : byteCount t (sockElts dims) = BitVec.ofInt 32 (4 * n) := by
    rw [byteCount, sockElts_eq, hn]
    have hsize : (4 * BitVec.ofNat 32 t.words : CInt) = BitVec.ofInt 32 (4 * t.words) := by
      cases t <;> decide
    rw [hsize, ← BitVec.ofInt_mul]
    congr 1
    ring
  have hint : (BitVec.ofInt 32 (4 * (n : Int))).toInt = 4 * n := by
    rw [BitVec.toInt_ofInt]
    exact Int.bmod_eq_of_le (by omega) (by omega)
  rw [wordCount, hcount, hint]
  omega

theorem four_mul_wordCount_lt (bytes : CInt) : 4 * wordCount bytes < 2 ^ 31 := by
  have hlt := BitVec.toInt_lt (x := bytes)
  rw [wordCount]
  omega

theorem recvData_fits {inputType : CInt → Option DataType} {jid datalen : CInt} {b : Build}
    {ws rest : List CInt} {payload : Option (DataType × List CInt)}
    (h : recvData inputType jid datalen b ws = some (payload, rest)) :
    ∀ p ∈ payload, 4 * p.2.length < 2 ^ 31 := by
  intro p hp
  cases b with
  | noNet =>
      obtain ⟨rfl, -⟩ := Prod.mk.inj (Option.some.inj h)
      cases hp
  | net =>
      unfold recvData at h
      cases htype : inputType jid with
      | none =>
          rw [htype] at h
          obtain ⟨rfl, -⟩ := Prod.mk.inj (Option.some.inj h)
          cases hp
      | some t =>
          rw [htype] at h
          obtain ⟨data, ws1, hdata, h⟩ := bind_eq_some.mp h
          split at h
          case isFalse => cases h
          case isTrue =>
            obtain ⟨rfl, -⟩ := Prod.mk.inj (Option.some.inj h)
            obtain rfl := Option.some.inj hp
            have hlt := four_mul_wordCount_lt (byteCount t datalen)
            rw [← length_of_words hdata] at hlt
            exact hlt

/-- What the backend passes to `sendRequest` fits. -/
theorem recvBatchedTensor_fits {inputDim : CInt → List CInt} {inputType : CInt → Option DataType}
    {b : Build} {ws rest : List CInt} {r : RunRequest}
    (h : recvBatchedTensor inputDim inputType b ws = some (r, rest)) : r.Fits := by
  obtain ⟨jid, ws1, -, h⟩ := bind_eq_some.mp h
  obtain ⟨rid, ws2, -, h⟩ := bind_eq_some.mp h
  obtain ⟨batchSize, ws3, -, h⟩ := bind_eq_some.mp h
  obtain ⟨payload, ws4, hpayload, h⟩ := bind_eq_some.mp h
  obtain ⟨rfl, -⟩ := Prod.mk.inj (Option.some.inj h)
  refine ⟨?_, recvData_fits hpayload⟩
  intro d hd
  obtain ⟨c, -, rfl⟩ := List.mem_map.mp hd
  rw [BitVec.toInt_signExtend_of_le (by decide)]
  exact ⟨BitVec.le_toInt c, BitVec.toInt_lt⟩

/-! ## Round trip -/

section RoundTrip

variable {inputType : CInt → Option DataType} {b : Build} {r : RunRequest}

theorem recvPayload_send (hr : r.WellFormed inputType b) (hfits : r.Fits) (rest : List CInt) :
    recvPayload inputType r.jobID b ((sendRequest r b).drop (sendHeader r).length ++ rest) =
      some (r.payload, rest) := by
  cases b with
  | noNet =>
      have hnone := hr.noNet rfl
      simp only [sendRequest, List.drop_length, List.nil_append, recvPayload, hnone]
      rfl
  | net =>
      obtain ⟨t, data, hpayload, htype, hlen⟩ := hr.net rfl
      have hbytes := hfits.bytes (t, data) hpayload
      have hcount := wordCount_byteCount hlen hbytes
      have hsend : socketSend data (byteCount t (sockElts r.dims)) = data := by
        rw [socketSend, hcount, List.take_length]
      have hdata := words_append hcount.symm rest
      simp only [sendRequest, List.drop_left, hpayload, Option.elim_some, hsend, List.cons_append,
        recvPayload]
      rw [bind_of_eq (word_cons _ _), htype]
      simp only [Option.elim_some]
      rw [bind_of_eq hdata]
      rfl

theorem sendRequest_eq (r : RunRequest) (b : Build) :
    sendRequest r b = sendHeader r ++ (sendRequest r b).drop (sendHeader r).length := by
  cases b with
  | noNet => simp [sendRequest]
  | net => simp [sendRequest]

theorem recvTurn_run (hr : r.WellFormed inputType b) (hfits : r.Fits) (rest : List CInt) :
    recvTurn inputType b (sendRequest r b ++ rest) = some (.queue (.run r), rest) := by
  have hpos := hr.dims_pos
  have hle := hr.dims_le
  have hint : (BitVec.ofNat 32 r.dims.length).toInt = r.dims.length := by
    have hnat : (BitVec.ofNat 32 r.dims.length).toNat = r.dims.length := by
      rw [BitVec.toNat_ofNat]
      exact Nat.mod_eq_of_lt (by omega)
    rw [BitVec.toInt_eq_toNat_of_lt (by omega), hnat]
  have hnot : ∀ c : CInt, 4 < c.toInt ∨ c.toInt = 0 → BitVec.ofNat 32 r.dims.length ≠ c := by
    rintro c hc rfl
    omega
  have hdims : (r.dims.map toCInt).map (BitVec.signExtend 64) = r.dims := by
    rw [List.map_map]
    exact (List.map_congr_left fun d hd => signExtend_toCInt (hfits.dims d hd)).trans (List.map_id _)
  have hlen : (r.dims.map toCInt).length = r.dims.length := List.length_map _
  have hwords := words_append hlen
    (r.reqID :: ((sendRequest r b).drop (sendHeader r).length ++ rest))
  have hpayload := recvPayload_send hr hfits rest
  rw [sendRequest_eq]
  unfold recvTurn
  simp only [sendHeader, List.cons_append, List.nil_append, List.append_assoc] at hwords hpayload ⊢
  rw [bind_of_eq (word_cons _ _), if_neg (hnot _ (Or.inl (by decide))),
    if_neg (hnot _ (Or.inl (by decide))), if_neg (hnot _ (Or.inl (by decide))),
    if_neg (by rw [hint]; omega), if_pos (hnot 0 (Or.inr rfl)), bind_of_eq (word_cons _ _), hint,
    Int.toNat_natCast, bind_of_eq hwords, bind_of_eq (word_cons _ _), bind_of_eq hpayload, hdims]
  rfl

theorem recvTurn_send {m : Msg} (hm : m.WellFormed inputType b) (hfits : m.Fits) (rest : List CInt) :
    recvTurn inputType b (send b m ++ rest) = some (.queue m, rest) := by
  cases m with
  | load modelID batchSize => rfl
  | unload modelID => rfl
  | run r => exact recvTurn_run hm hfits rest

theorem length_send_pos (b : Build) (m : Msg) : 0 < (send b m).length := by
  cases m with
  | load modelID batchSize => exact Nat.zero_lt_succ _
  | unload modelID => exact Nat.zero_lt_succ _
  | run r => cases b <;> simp [send, sendRequest, sendHeader]

/-- A turn that queues a message leaves the rest to the loop. -/
theorem recvLoop_queue {m : Msg} {ws rest : List CInt} (hne : ws ≠ [])
    (hturn : recvTurn inputType b ws = some (.queue m, rest)) (fuel : Nat) :
    recvLoop inputType b (fuel + 1) ws =
      (recvLoop inputType b fuel rest).map fun q => (m :: q.1, q.2) := by
  cases ws with
  | nil => exact absurd rfl hne
  | cons w ws =>
      rw [recvLoop, hturn]
      · rfl
      · exact List.cons_ne_nil w ws

theorem recvLoop_send {msgs : List Msg} (hmsgs : ∀ m ∈ msgs, m.WellFormed inputType b)
    (hfits : ∀ m ∈ msgs, m.Fits) {fuel : Nat} (hfuel : msgs.length < fuel) :
    recvLoop inputType b fuel (msgs.flatMap (send b) ++ disconnectProxy) = some (msgs, []) := by
  induction msgs generalizing fuel with
  | nil =>
      obtain ⟨n, rfl⟩ := Nat.exists_eq_succ_of_ne_zero (Nat.ne_of_gt hfuel)
      rfl
  | cons m msgs ih =>
      obtain ⟨n, rfl⟩ := Nat.exists_eq_succ_of_ne_zero (Nat.ne_of_gt (Nat.zero_lt_of_lt hfuel))
      obtain ⟨hm, hmsgs⟩ := List.forall_mem_cons.mp hmsgs
      obtain ⟨hmfits, hfits⟩ := List.forall_mem_cons.mp hfits
      have hturn := recvTurn_send hm hmfits (msgs.flatMap (send b) ++ disconnectProxy)
      have hne : send b m ++ (msgs.flatMap (send b) ++ disconnectProxy) ≠ [] :=
        List.append_ne_nil_of_left_ne_nil (List.ne_nil_of_length_pos (length_send_pos b m)) _
      have hloop := ih hmsgs hfits (Nat.lt_of_succ_lt_succ hfuel)
      rw [List.flatMap_cons, List.append_assoc, Nat.succ_eq_add_one, recvLoop_queue hne hturn, hloop]
      rfl

theorem length_le_flatMap_send (b : Build) (msgs : List Msg) :
    msgs.length ≤ (msgs.flatMap (send b)).length := by
  induction msgs with
  | nil => simp
  | cons m msgs ih =>
      have hpos := length_send_pos b m
      simp only [List.flatMap_cons, List.length_append, List.length_cons]
      omega

/-- Any sequence of messages and the close that follows them come back as they
were sent, in either build, and nothing is left on the socket. -/
theorem recvInput_send {msgs : List Msg} (hmsgs : ∀ m ∈ msgs, m.WellFormed inputType b)
    (hfits : ∀ m ∈ msgs, m.Fits) :
    recvInput inputType b (msgs.flatMap (send b) ++ disconnectProxy) = some (msgs, []) := by
  refine recvLoop_send hmsgs hfits ?_
  have hle := length_le_flatMap_send b msgs
  rw [List.length_append]
  omega

end RoundTrip

/-- Job 1 takes two `float`s, job 2 an `int64_t`. -/
theorem recvInput_send_four :
    ∃ (inputType : CInt → Option DataType) (msgs : List Msg), msgs.length = 4 ∧
      recvInput inputType .net (msgs.flatMap (send .net) ++ disconnectProxy) = some (msgs, []) := by
  refine ⟨fun j => if j = 1 then some .fp32 else if j = 2 then some .int64 else none,
    [.load 1 2, .run ⟨1, [1, 2], 7, some (.fp32, [10, 11])⟩,
      .run ⟨2, [1, 1, 1], 8, some (.int64, [12, 13])⟩, .unload 1], rfl, ?_⟩
  have hfloat : RunRequest.WellFormed (fun j => if j = 1 then some .fp32 else
      if j = 2 then some .int64 else none) .net ⟨1, [1, 2], 7, some (.fp32, [10, 11])⟩ :=
    ⟨by decide, by decide, by decide, fun _ => ⟨.fp32, [10, 11], rfl, rfl, by decide⟩⟩
  have hint : RunRequest.WellFormed (fun j => if j = 1 then some .fp32 else
      if j = 2 then some .int64 else none) .net ⟨2, [1, 1, 1], 8, some (.int64, [12, 13])⟩ :=
    ⟨by decide, by decide, by decide, fun _ => ⟨.int64, [12, 13], rfl, rfl, by decide⟩⟩
  refine recvInput_send ?_ ?_
  · simp only [List.forall_mem_cons]
    exact ⟨trivial, hfloat, hint, trivial, by simp⟩
  · simp only [List.forall_mem_cons]
    exact ⟨trivial, ⟨by simp, by simp⟩, ⟨by simp, by simp⟩, trivial, by simp⟩

end Glet.ProxyWire
