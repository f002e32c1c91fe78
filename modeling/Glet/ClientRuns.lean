import Glet.Clients

/-!
# Requests from end to end

The invariant of a connection: what the request thread has taken from its
socket, what is on the way and what the client has not sent yet make up the
bytes of the client, and the instances of the socket are those of its requests
so far (`Talking`). It holds whatever the pieces are in which bytes are sent and
received. With what is known about replies, requests are answered under the ids
that their clients have given them.
-/

namespace Glet

/-! ## Other threads and other sockets -/

namespace Replies

variable {apps : List (String × AppSpec)} {st st' : Server} {t u fd other : Nat} {k : Instance}
  {f : Instance → Instance} {name : String} {spec : AppSpec} {dsts : List Nat}

/-- The instance gets a tensor and its id. -/
def Server.receive (st : Server) (t fd : Nat) (tid : Int) : Server :=
  { st.update t fun k => { k with taskID := tid, arrived := k.arrived + 1 } with
    received := st.received ++ [(fd, tid)] }

/-- What request threads see of an instance. -/
structure SameInput (k k' : Instance) : Prop where
  name : k'.name = k.name
  spec : k'.spec = k.spec
  socketFD : k'.socketFD = k.socketFD
  taskID : k'.taskID = k.taskID
  arrived : k'.arrived = k.arrived

theorem SameInput.refl (k : Instance) : SameInput k k := ⟨rfl, rfl, rfl, rfl, rfl⟩

/-- The reply has the id of its instance, for which tensors have arrived. -/
def Due (st : Server) (r : Reply) : Prop :=
  ∃ k, st.instances[r.task]? = some k ∧ k.socketFD = r.socketFD ∧ k.taskID = r.taskID ∧ 0 < k.arrived

/-- The request thread of a socket does not notice a step. -/
structure Unseen (fd : Nat) (st st' : Server) : Prop where
  keeps : ∀ (t : Nat) k, st.instances[t]? = some k → k.socketFD = fd →
    ∃ k', st'.instances[t]? = some k' ∧ SameInput k k'
  adds : ∀ (t : Nat) k', st'.instances[t]? = some k' → k'.socketFD = fd →
    ∃ k, st.instances[t]? = some k ∧ k.socketFD = fd
  current : st'.current fd = st.current fd
  replies : ∀ r ∈ st'.replies, r.socketFD = fd → r ∈ st.replies ∨ Due st r

theorem Unseen.of_eq (h : st'.instances = st.instances) (hcur : st'.current fd = st.current fd)
    (hreplies : st'.replies = st.replies) : Unseen fd st st' := by
  refine ⟨fun t k hk _ => ⟨k, by rw [h]; exact hk, .refl k⟩, fun t k' hk' hfd => ?_, hcur,
    fun r hr _ => Or.inl (hreplies ▸ hr)⟩
  exact ⟨k', by rw [← h]; exact hk', hfd⟩

theorem Unseen.of_update (h : st'.instances = (st.update t f).instances)
    (hcur : st'.current fd = st.current fd) (hreplies : st'.replies = st.replies)
    (hf : ∀ k, st.instances[t]? = some k →
      (f k).socketFD = k.socketFD ∧ (k.socketFD = fd → SameInput k (f k))) : Unseen fd st st' := by
  refine ⟨fun u k hk hfd => ?_, fun u k' hk' hfd => ?_, hcur, fun r hr _ => Or.inl (hreplies ▸ hr)⟩
  · refine ⟨_, by rw [h]; exact update_of_get hk, ?_⟩
    split
    case isTrue htu =>
      subst htu
      exact (hf k hk).2 hfd
    case isFalse => exact .refl k
  · rw [h] at hk'
    obtain ⟨k, hk, rfl⟩ := get_of_update hk'
    refine ⟨k, hk, ?_⟩
    split at hfd
    case isTrue htu =>
      subst htu
      exact (hf k hk).1.symm.trans hfd
    case isFalse => exact hfd

theorem Unseen.of_same (h : st'.instances = (st.update t f).instances)
    (hcur : st'.current fd = st.current fd) (hreplies : st'.replies = st.replies)
    (hf : ∀ k, SameInput k (f k)) : Unseen fd st st' :=
  .of_update h hcur hreplies fun k _ => ⟨(hf k).socketFD, fun _ => hf k⟩

theorem Unseen.trans {st'' : Server} (h : Unseen fd st st') (h' : Unseen fd st' st'') :
    Unseen fd st st'' := by
  refine ⟨fun t k hk hfd => ?_, fun t k' hk' hfd => ?_, h'.current.trans h.current,
    fun r hr hfd => (h'.replies r hr hfd).elim (fun hr => h.replies r hr hfd) fun hdue => Or.inr ?_⟩
  · obtain ⟨k1, hk1, hsame⟩ := h.keeps t k hk hfd
    obtain ⟨k2, hk2, hsame'⟩ := h'.keeps t k1 hk1 (hsame.socketFD.trans hfd)
    exact ⟨k2, hk2, hsame'.name.trans hsame.name, hsame'.spec.trans hsame.spec,
      hsame'.socketFD.trans hsame.socketFD, hsame'.taskID.trans hsame.taskID,
      hsame'.arrived.trans hsame.arrived⟩
  · obtain ⟨k1, hk1, hfd1⟩ := h'.adds t k' hk' hfd
    exact h.adds t k1 hk1 hfd1
  · obtain ⟨k1, hk1, hfd1, hid, harr⟩ := hdue
    obtain ⟨k, hk, hfdk⟩ := h.adds _ k1 hk1 (hfd1.trans hfd)
    obtain ⟨k2, hk2, hsame⟩ := h.keeps _ k hk hfdk
    obtain rfl := Option.some.inj (hk1.symm.trans hk2)
    exact ⟨k, hk, hfdk.trans hfd.symm, hsame.taskID.symm.trans hid, hsame.arrived ▸ harr⟩

theorem unseen_create (hne : other ≠ fd) : Unseen fd st (st.create name spec other) := by
  refine ⟨fun t k hk _ => ⟨k, create_of_get hk, .refl k⟩, fun t k' hk' hfd => ?_,
    Function.update_of_ne hne.symm _ _, fun r hr _ => Or.inl hr⟩
  rw [Server.create, List.getElem?_append] at hk'
  split at hk'
  case isTrue => exact ⟨k', hk', hfd⟩
  case isFalse =>
    obtain rfl := List.mem_singleton.mp (List.mem_of_getElem? hk')
    exact absurd hfd hne

theorem unseen_place (t : Nat) (spec : AppSpec) (dsts : List Nat) :
    Unseen fd st (st.place t spec dsts) := by
  rw [place_eq]
  exact .of_eq rfl rfl rfl

/-- Another socket's `recvTensor` goes unseen. -/
theorem unseen_recvTensor {tid : Int} (hown : OwnSocket st) (hne : other ≠ fd)
    (h : recvTensor other tid st = some st') : Unseen fd st st' := by
  rcases recvTensor_cases h with ⟨-, rfl⟩ | ⟨-, t, k, id, ht, hk, hid, st1, rfl, hst'⟩
  · exact .of_eq rfl (Function.update_of_ne hne.symm _ _) rfl
  · have hreceived : Unseen fd st (st.receive t other tid) := by
      refine .of_update (t := t) (f := fun k => { k with taskID := tid, arrived := k.arrived + 1 })
        rfl rfl rfl fun k' hk' => ⟨rfl, fun hfd => ?_⟩
      obtain ⟨k0, hk0, hfd0⟩ := hown other t ht
      obtain rfl := Option.some.inj (hk0.symm.trans hk')
      exact absurd (hfd0.symm.trans hfd) hne
    have hplaced := hreceived.trans (unseen_place t k.spec (k.spec.getNextDsts id))
    rcases hst' with rfl | rfl
    · exact hplaced
    · exact hplaced.trans (unseen_create hne)

/-- A step of a thread that is not a request thread. -/
def Act.isServing : Act → Bool
  | .connect _ _ => false
  | .recvTensor _ _ => false
  | _ => true

/-- Other threads go unseen, and every reply has the id of its instance. -/
theorem unseen_serve {act : Act} (hv : Valid st) (hserve : act.isServing = true)
    (h : step apps act st = some st') : Unseen fd st st' := by
  cases act with
  | connect name fd => cases hserve
  | recvTensor fd tid => cases hserve
  | look name =>
      obtain ⟨-, rfl⟩ := look_cases h
      exact .of_eq rfl rfl rfl
  | test late =>
      obtain ⟨d, rfl, -⟩ := test_cases h
      exact .of_eq rfl rfl rfl
  | mark =>
      obtain ⟨r, q, -, rfl⟩ := mark_cases h
      exact .of_same rfl rfl rfl fun _ => ⟨rfl, rfl, rfl, rfl, rfl⟩
  | drop =>
      obtain ⟨r, q, k, -, -, rfl⟩ := drop_cases h
      exact .of_same rfl rfl rfl fun _ => ⟨rfl, rfl, rfl, rfl, rfl⟩
  | pop thread name =>
      obtain ⟨r, q, -, rfl⟩ := pop_cases h
      exact .of_eq rfl rfl rfl
  | send thread =>
      obtain rfl := send_eq h
      exact .of_eq rfl rfl rfl
  | finish i =>
      obtain ⟨b, r, rest, -, -, rfl⟩ := finish_cases h
      exact .of_same rfl rfl rfl fun _ => ⟨rfl, rfl, rfl, rfl, rfl⟩
  | sendResult i =>
      obtain ⟨b, r, rest, k, -, -, -, -, -, st1, rfl, ⟨-, rfl⟩ | ⟨-, rfl⟩⟩ := sendResult_cases h
      · exact .of_same rfl rfl rfl fun _ => ⟨rfl, rfl, rfl, rfl, rfl⟩
      · have hchecked : Unseen fd st { st.update r.task fun k =>
            { k with app := k.app.isFinished.2 } with
            sent := st.sent.set i { b with toSend := rest } } :=
          .of_same rfl rfl rfl fun _ => ⟨rfl, rfl, rfl, rfl, rfl⟩
        exact hchecked.trans (unseen_place _ _ _)
  | report i =>
      obtain ⟨b, t, k, -, -, -, rfl⟩ := report_cases h
      exact .of_same rfl rfl rfl fun _ => ⟨rfl, rfl, rfl, rfl, rfl⟩
  | reply name =>
      obtain ⟨t, dropped, rest, k, hq, hk, rfl⟩ := reply_cases h
      refine ⟨fun t k hk _ => ⟨k, hk, .refl k⟩, fun t k hk hfd => ⟨k, hk, hfd⟩, rfl, fun r hr _ => ?_⟩
      refine (List.mem_append.mp hr).imp_right fun hr => ?_
      obtain rfl := List.mem_singleton.mp hr
      obtain ⟨k', hk', hans, -⟩ := hv.answering name (t, dropped)
        (by rw [hq]; exact List.mem_cons_self ..)
      obtain rfl := Option.some.inj (hk.symm.trans hk')
      exact ⟨k, hk, rfl, rfl, hans.1⟩

end Replies

/-! ## What a client sends -/

namespace Clients

open Glet.Replies (Server Instance Unseen SameInput)
open Glet.ProxyWire (Build)

/-- The application of the client's name takes the tensors that the client
sends. The name and its zero fit into the buffer, and ids are `int`s. -/
structure Client.Fits (d : Deployment) (c : Client) (a : App) : Prop where
  app : d.app? (chars c.model) = some a
  short : (chars c.model).length < MAX_REQ_SIZE
  nonzero : 0 ∉ chars c.model
  inputs : a.inputTensors ≠ []
  sized : d.build = .net → ∀ s ∈ a.inputTensors, 0 < s.bytes
  tensors : ∀ i < c.numReqs, List.Forall₂
    (fun s data => d.build = .net → (data.length : Int) = s.bytes) a.inputTensors (c.tensors d.build i)
  numReqs : (c.numReqs : Int) < 2 ^ 31

/-- The tensors of a request with their nodes and ids. -/
def Client.delivery (c : Client) (b : Build) (a : App) (i : Nat) : List (Nat × List UInt8 × Int) :=
  List.zipWith (fun s data => (s.id, data, wrap32 (i + 1))) a.inputTensors (c.tensors b i)

/-- A tensor and its id on the socket. -/
def encode (e : Nat × List UInt8 × Int) : List UInt8 := e.2.1 ++ intBytes e.2.2

/-- The requests from `q` on. -/
def Client.later (c : Client) (b : Build) (a : App) (q : Nat) : List (Nat × List UInt8 × Int) :=
  (List.range' q (c.numReqs - q)).flatMap (c.delivery b a)

/-- What is left after `q` requests and `j` tensors. -/
def Client.remaining (c : Client) (b : Build) (a : App) (q j : Nat) :
    List (Nat × List UInt8 × Int) :=
  if q < c.numReqs then (c.delivery b a q).drop j ++ c.later b a (q + 1) else []

variable {d : Deployment} {c : Client} {a : App} {q j : Nat}

theorem later_of_lt {b : Build} (h : q < c.numReqs) :
    c.later b a q = c.delivery b a q ++ c.later b a (q + 1) := by
  have hlen : c.numReqs - q = (c.numReqs - (q + 1)) + 1 := by omega
  rw [Client.later, hlen, List.range'_succ, List.flatMap_cons]
  rfl

theorem remaining_zero {b : Build} (hq : q ≤ c.numReqs) : c.remaining b a q 0 = c.later b a q := by
  unfold Client.remaining
  split
  case isTrue h => rw [later_of_lt h, List.drop_zero]
  case isFalse h =>
    have hlen : c.numReqs - q = 0 := by omega
    rw [Client.later, hlen]
    rfl

theorem remaining_last {b : Build} (h : q = c.numReqs) : c.remaining b a q j = [] :=
  if_neg (by omega)

namespace Client.Fits

theorem length_tensors (h : c.Fits d a) (hq : q < c.numReqs) :
    (c.tensors d.build q).length = a.inputTensors.length :=
  (h.tensors q hq).length_eq.symm

/-- The ids of requests do not overflow. -/
theorem wrap32_id (h : c.Fits d a) (hq : q < c.numReqs) : wrap32 (q + 1) = q + 1 := by
  have := h.numReqs
  exact Int.bmod_eq_of_le (by omega) (by omega)

/-- What is received next. -/
theorem remaining_cons (h : c.Fits d a) (hq : q < c.numReqs) (hj : j < a.inputTensors.length) :
    ∃ data, c.remaining d.build a q j = (a.inputTensors[j].id, data, (q + 1 : Int)) ::
        (if j + 1 = a.inputTensors.length then c.remaining d.build a (q + 1) 0
          else c.remaining d.build a q (j + 1)) ∧
      (d.build = .net → (data.length : Int) = a.inputTensors[j].bytes) ∧
      (d.build = .noNet → data = []) := by
  have hlen := h.length_tensors hq
  have hdelivery : (c.delivery d.build a q).length = a.inputTensors.length := by
    rw [Client.delivery, List.length_zipWith, hlen, Nat.min_self]
  refine ⟨(c.tensors d.build q)[j], ?_, (h.tensors q hq).get hj (by omega), fun hno => ?_⟩
  · have hhead : (c.delivery d.build a q)[j] =
        (a.inputTensors[j].id, (c.tensors d.build q)[j], (q + 1 : Int)) := by
      rw [← h.wrap32_id hq]
      exact List.getElem_zipWith
    rw [Client.remaining, if_pos hq, List.drop_eq_getElem_cons (by omega), List.cons_append, hhead]
    congr 1
    · split
      case isTrue hlast =>
        rw [remaining_zero hq, List.drop_eq_nil_of_le (by omega), List.nil_append]
      case isFalse => rw [Client.remaining, if_pos hq]
  · simp [Client.tensors, hno]

theorem delivery_snd (h : c.Fits d a) (hq : q < c.numReqs) :
    (c.delivery d.build a q).map (·.2) = c.request d.build q := by
  have hzip : (a.inputTensors.zip (c.tensors d.build q)).map Prod.snd = c.tensors d.build q :=
    List.map_snd_zip (h.length_tensors hq).le
  rw [Client.delivery, List.map_zipWith, ← List.map_uncurry_zip_eq_zipWith, Client.request]
  conv_rhs => rw [← hzip, List.map_map]
  rfl

/-- All tensors with their ids, on the socket and as they are placed. -/
theorem sendRequest_eq (h : c.Fits d a) : c.sendRequest d.build =
    c.name ++ (intBytes c.numInput ++ (c.remaining d.build a 0 0).flatMap encode) := by
  have hrequest : ∀ i ∈ List.range c.numReqs, (c.request d.build i).flatMap
      (fun m => m.1 ++ intBytes m.2) = (c.delivery d.build a i).flatMap encode := by
    intro i hi
    rw [← h.delivery_snd (List.mem_range.mp hi), List.flatMap_map]
    rfl
  rw [Client.sendRequest, remaining_zero (Nat.zero_le _), Client.later, List.append_assoc,
    List.flatMap_assoc, List.flatMap_assoc, Nat.sub_zero, ← List.range_eq_range',
    List.flatMap_congr hrequest]

theorem length_name (c : Client) : c.name.length = MAX_REQ_SIZE := by
  have hread := c.readable
  rw [Client.name, List.length_take, List.length_append, List.length_cons]
  omega

/-- The name is what stands before the zero. -/
theorem appName_name (h : c.Fits d a) : appName c.name = chars c.model := by
  have hshort := h.short
  obtain ⟨m, hm⟩ := Nat.exists_eq_add_of_lt hshort
  have hbuffer : c.name = chars c.model ++ 0 :: c.after.take m := by
    rw [Client.name, List.take_append, List.take_of_length_le hshort.le]
    congr 1
    rw [show MAX_REQ_SIZE - (chars c.model).length = m + 1 by omega, List.take_succ_cons]
  rw [appName, hbuffer, List.takeWhile_append_of_pos, List.takeWhile_cons_of_neg, List.append_nil]
  · decide
  · intro b hb
    exact decide_eq_true fun h0 => h.nonzero (h0 ▸ hb)

end Client.Fits

/-! ## The instances of a socket -/

/-- The instances of a socket after `q` requests and `j` tensors, the last one
included. -/
structure Fed (a : App) (fd : Nat) (st : Server) (q j : Nat) (ts : List Nat) : Prop where
  length : ts.length = q + 1
  each : ∀ i t, ts[i]? = some t → ∃ k, st.instances[t]? = some k ∧ k.socketFD = fd ∧
    k.name = a.name ∧ k.spec = a.spec ∧
    k.arrived = (if i < q then a.inputTensors.length else j) ∧
    k.taskID = if i < q ∨ 0 < j then (i + 1 : Int) else 0
  only : ∀ (t : Nat) k, st.instances[t]? = some k → k.socketFD = fd → t ∈ ts
  answered : ∀ r ∈ st.replies, r.socketFD = fd → ∃ i : Nat, ts[i]? = some r.task ∧
    r.taskID = (i + 1 : Int) ∧ (i < q ∨ 0 < j)

/-- Nothing was received from a socket. -/
structure New (fd : Nat) (st : Server) : Prop where
  current : st.current fd = none
  instances : ∀ (t : Nat) k, st.instances[t]? = some k → k.socketFD ≠ fd
  replies : ∀ r ∈ st.replies, r.socketFD ≠ fd

variable {fd n t : Nat} {st st' : Server} {ts : List Nat} {k : Instance}

theorem New.unseen (hsame : Unseen fd st st') (h : New fd st) : New fd st' := by
  refine ⟨hsame.current.trans h.current, fun t k' hk' hfd => ?_, fun r hr hfd => ?_⟩
  · obtain ⟨k, hk, hfd'⟩ := hsame.adds t k' hk' hfd
    exact h.instances t k hk hfd'
  · rcases hsame.replies r hr hfd with hold | ⟨k, hk, hfd', -⟩
    · exact h.replies r hold hfd
    · exact h.instances _ k hk (hfd'.trans hfd)

namespace Fed

theorem unseen (hsame : Unseen fd st st') (h : Fed a fd st q j ts) : Fed a fd st' q j ts := by
  refine ⟨h.length, fun i t hi => ?_, fun t k' hk' hfd => ?_, fun r hr hfd => ?_⟩
  · obtain ⟨k, hk, hfd, hname, hspec, harr, hid⟩ := h.each i t hi
    obtain ⟨k', hk', hin⟩ := hsame.keeps t k hk hfd
    exact ⟨k', hk', hin.socketFD.trans hfd, hin.name.trans hname, hin.spec.trans hspec,
      hin.arrived.trans harr, hin.taskID.trans hid⟩
  · obtain ⟨k, hk, hfd'⟩ := hsame.adds t k' hk' hfd
    exact h.only t k hk hfd'
  · rcases hsame.replies r hr hfd with hold | ⟨k, hk, hfd', hid, hpos⟩
    · exact h.answered r hold hfd
    · -- a new reply is for an instance that has a tensor
      obtain ⟨i, hi⟩ := List.mem_iff_getElem?.mp (h.only r.task k hk (hfd'.trans hfd))
      obtain ⟨k', hk', -, -, -, harr, hid'⟩ := h.each i r.task hi
      obtain rfl := Option.some.inj (hk.symm.trans hk')
      have hsome : i < q ∨ 0 < j := by
        by_cases hiq : i < q
        · exact Or.inl hiq
        · rw [harr, if_neg hiq] at hpos
          exact Or.inr hpos
      rw [if_pos hsome] at hid'
      exact ⟨i, hi, hid.symm.trans hid', hsome⟩

/-- A new instance, once the last one has all tensors. -/
theorem create (h : Fed a fd st q a.inputTensors.length ts) (hpos : 0 < a.inputTensors.length) :
    Fed a fd (st.create a.name a.spec fd) (q + 1) 0 (ts ++ [st.instances.length]) := by
  refine ⟨by simp [h.length], fun i t hi => ?_, fun t k' hk' hfd => ?_, fun r hr hfd => ?_⟩
  · rw [List.getElem?_append] at hi
    split at hi
    case isTrue hlt =>
      rw [h.length] at hlt
      obtain ⟨k, hk, hfd, hname, hspec, harr, hid⟩ := h.each i t hi
      refine ⟨k, Replies.create_of_get hk, hfd, hname, hspec, ?_, ?_⟩
      · rw [harr, if_pos hlt]
        exact ite_self _
      · rw [hid, if_pos (Or.inr hpos), if_pos (Or.inl hlt)]
    case isFalse hge =>
      rw [h.length] at hge hi
      obtain rfl := List.mem_singleton.mp (List.mem_of_getElem? hi)
      refine ⟨_, List.getElem?_concat_length, rfl, rfl, rfl, (if_neg hge).symm, ?_⟩
      exact (if_neg (by omega)).symm
  · rw [Server.create, List.getElem?_append] at hk'
    split at hk'
    case isTrue => exact List.mem_append_left _ (h.only t k' hk' hfd)
    case isFalse hge =>
      have hlt := (List.getElem?_eq_some_iff.mp hk').1
      rw [List.length_singleton] at hlt
      exact List.mem_append_right _ (List.mem_singleton.mpr (by omega))
  · obtain ⟨i, hi, hid, -⟩ := h.answered r hr hfd
    have hlt := (List.getElem?_eq_some_iff.mp hi).1
    refine ⟨i, ?_, hid, Or.inl (h.length ▸ hlt)⟩
    rw [List.getElem?_append_left hlt]
    exact hi

/-- The first instance. -/
theorem start (h : New fd st) :
    Fed a fd (st.create a.name a.spec fd) 0 0 [st.instances.length] := by
  refine ⟨rfl, fun i t hi => ?_, fun t k' hk' hfd => ?_, fun r hr hfd => absurd hfd (h.replies r hr)⟩
  · obtain rfl := List.mem_singleton.mp (List.mem_of_getElem? hi)
    refine ⟨_, List.getElem?_concat_length, rfl, rfl, rfl, (if_neg (by omega)).symm, ?_⟩
    exact (if_neg (by omega)).symm
  · rw [Server.create, List.getElem?_append] at hk'
    split at hk'
    case isTrue => exact absurd hfd (h.instances t k' hk')
    case isFalse hge =>
      have hlt := (List.getElem?_eq_some_iff.mp hk').1
      rw [List.length_singleton] at hlt
      exact List.mem_singleton.mpr (by omega)

/-- The last instance receives a tensor. -/
theorem receive (h : Fed a fd st q j ts) (ht : ts[q]? = some t) (hj : j < a.inputTensors.length) :
    Fed a fd (st.receive t fd (q + 1)) q (j + 1) ts := by
  obtain ⟨k0, hk0, -, -, -, harr0, -⟩ := h.each q t ht
  rw [if_neg (lt_irrefl q)] at harr0
  refine ⟨h.length, fun i u hi => ?_, fun u k' hk' hfd => ?_, fun r hr hfd => ?_⟩
  · obtain ⟨k, hk, hfd, hname, hspec, harr, hid⟩ := h.each i u hi
    refine ⟨_, Replies.update_of_get hk, ?_⟩
    by_cases hiq : i < q
    · rw [if_pos hiq] at harr
      have hne : ¬ t = u := by
        rintro rfl
        obtain rfl := Option.some.inj (hk0.symm.trans hk)
        omega
      rw [if_neg hne]
      refine ⟨hfd, hname, hspec, by rw [harr, if_pos hiq], ?_⟩
      rw [hid, if_pos (Or.inl hiq), if_pos (Or.inl hiq)]
    · have hlt := (List.getElem?_eq_some_iff.mp hi).1
      rw [h.length] at hlt
      obtain rfl : i = q := by omega
      obtain rfl := Option.some.inj (ht.symm.trans hi)
      rw [if_pos rfl]
      refine ⟨hfd, hname, hspec, ?_, (if_pos (Or.inr (Nat.succ_pos j))).symm⟩
      rw [if_neg hiq] at harr ⊢
      exact congrArg (· + 1) harr
  · obtain ⟨k, hk, rfl⟩ := Replies.get_of_update hk'
    refine h.only u k hk ?_
    split at hfd <;> exact hfd
  · obtain ⟨i, hi, hid, -⟩ := h.answered r hr hfd
    exact ⟨i, hi, hid, Or.inr (Nat.succ_pos j)⟩

/-- Where the request thread is. -/
theorem last (h : Fed a fd st q j ts) (hcur : st.current fd = ts[q]?) : ∃ t k,
    ts[q]? = some t ∧ st.current fd = some t ∧ st.instances[t]? = some k ∧ k.name = a.name ∧
      k.spec = a.spec ∧ k.arrived = j := by
  have hq : q < ts.length := by
    rw [h.length]
    exact Nat.lt_succ_self q
  obtain ⟨k, hk, -, hname, hspec, harr, -⟩ := h.each q ts[q] (List.getElem?_eq_getElem hq)
  rw [if_neg (lt_irrefl q)] at harr
  refine ⟨ts[q], k, List.getElem?_eq_getElem hq, ?_, hk, hname, hspec, harr⟩
  rw [hcur, List.getElem?_eq_getElem hq]

end Fed

end Clients

/-! ## What a request thread does to the server -/

namespace Replies

variable {apps : List (String × AppSpec)} {st : Server} {t fd : Nat} {k : Instance}

theorem recvTensor_pos {id : Nat} {tid : Int} (hcur : st.current fd = some t)
    (hk : st.instances[t]? = some k) (hid : k.spec.inputTensors[k.arrived]? = some id)
    (htid : 0 < tid) : recvTensor fd tid st =
      some (if k.arrived + 1 = k.spec.inputTensors.length then
        ((st.receive t fd tid).place t k.spec (k.spec.getNextDsts id)).create k.name k.spec fd
      else (st.receive t fd tid).place t k.spec (k.spec.getNextDsts id)) := by
  simp only [recvTensor, hcur, hk, hid, Option.bind_eq_bind, Option.bind_some,
    if_neg (Int.not_le.mpr htid)]
  split
  · rfl
  · rfl

end Replies

namespace Clients

open Glet.Replies (Server Instance Unseen)

variable {d : Deployment} {c : Client} {a : App} {fd n q j : Nat} {st st' : Server}
  {conn conn' : Conn}

/-! ## Reading from a socket -/

/-- The bytes on the way. -/
def Conn.wire (conn : Conn) : List UInt8 := conn.arrived ++ conn.toSend

theorem recv_cases {size : Nat} {bs : List UInt8} (h : conn.recv size n = some (bs, conn')) :
    bs.length = n ∧ 0 < n ∧ n ≤ size ∧ conn.wire = bs ++ conn'.wire ∧
      conn'.placed = conn.placed := by
  unfold Conn.recv at h
  split at h
  case isFalse => cases h
  case isTrue hn =>
    obtain ⟨hpos, hsize, hlen⟩ := hn
    obtain ⟨rfl, rfl⟩ := Prod.mk.inj (Option.some.inj h)
    refine ⟨List.length_take_of_le hlen, hpos, hsize, ?_, rfl⟩
    simp only [Conn.wire, ← List.append_assoc, List.take_append_drop]

/-- An `int` is read whole, or the socket is closed. -/
theorem rxsize_cases {x : Int} (h : conn.rxsize n = some (x, conn')) (hn : n ≠ 0 → n = 4) :
    (x = 0 ∧ conn' = conn ∧ conn.wire = []) ∨ (conn'.placed = conn.placed ∧
      ∃ bs, bs.length = 4 ∧ x = readInt bs ∧ conn.wire = bs ++ conn'.wire) := by
  unfold Conn.rxsize at h
  split at h
  case isTrue =>
    split at h
    case isFalse => cases h
    case isTrue hclosed =>
      obtain ⟨rfl, rfl⟩ := Prod.mk.inj (Option.some.inj h)
      exact Or.inl ⟨rfl, rfl, by rw [Conn.wire, hclosed.1, hclosed.2]; rfl⟩
  case isFalse hne =>
    obtain ⟨⟨bs, conn1⟩, hrecv, heq⟩ := Option.map_eq_some_iff.mp h
    obtain ⟨rfl, rfl⟩ := Prod.mk.inj heq
    obtain ⟨hlen, -, -, hwire, hplaced⟩ := recv_cases hrecv
    exact Or.inr ⟨hplaced, bs, hlen.trans (hn hne), rfl, hwire⟩

/-- The `int` that was written is read. -/
theorem rxsize_intBytes {x y : Int} {rest : List UInt8} (h : conn.rxsize n = some (x, conn'))
    (hn : n ≠ 0 → n = 4) (hwire : conn.wire = intBytes y ++ rest) :
    x = readInt (intBytes y) ∧ conn'.wire = rest ∧ conn'.placed = conn.placed := by
  rcases rxsize_cases h hn with ⟨-, -, hnil⟩ | ⟨hplaced, bs, hlen, hx, hbs⟩
  · exact absurd (List.append_eq_nil_iff.mp (hwire.symm.trans hnil)).1 (List.cons_ne_nil _ _)
  · obtain ⟨hint, hrest⟩ := List.append_inj (hbs.symm.trans hwire) hlen
    exact ⟨hint ▸ hx, hrest, hplaced⟩

/-! ## Connections -/

/-- The request thread in `recvTensor`, with what it and the socket have of the
tensors that remain. -/
inductive Receiving (d : Deployment) (c : Client) (a : App) (q j : Nat) (conn : Conn) : Prop
  | data (got : List UInt8) (hnet : d.build = .net) (hthread : conn.thread = .data a.inputTensors got)
      (hbytes : got ++ conn.wire = (c.remaining d.build a q j).flatMap encode)
      (hless : ∀ e ∈ (c.remaining d.build a q j).head?, got.length < e.2.1.length)
  | taskID (e : Nat × List UInt8 × Int) (es : List (Nat × List UInt8 × Int))
      (hrest : c.remaining d.build a q j = e :: es)
      (hthread : conn.thread = .taskID a.inputTensors e.2.1)
      (hbytes : conn.wire = intBytes e.2.2 ++ es.flatMap encode)
  | waiting (hno : d.build = .noNet) (hrest : c.remaining d.build a q j = [])
      (hthread : conn.thread = .taskID a.inputTensors []) (hbytes : conn.wire = [])

/-- A client and its request thread. -/
inductive Talking (d : Deployment) (c : Client) (a : App) (fd : Nat) (st : Server) (conn : Conn) : Prop
  | greeting (got : List UInt8) (hthread : conn.thread = .name got)
      (hless : got.length < MAX_REQ_SIZE) (hbytes : got ++ conn.wire = c.sendRequest d.build)
      (hnew : New fd st) (hplaced : conn.placed = [])
  | counting (hthread : conn.thread = .numInput (chars c.model))
      (hbytes : conn.wire = intBytes c.numInput ++ (c.remaining d.build a 0 0).flatMap encode)
      (hnew : New fd st) (hplaced : conn.placed = [])
  | feeding (q j : Nat) (ts : List Nat) (hq : q ≤ c.numReqs) (hj : j < a.inputTensors.length)
      (hlast : q = c.numReqs → j = 0) (hfed : Fed a fd st q j ts) (hcur : st.current fd = ts[q]?)
      (hplaced : conn.placed ++ c.remaining d.build a q j = c.remaining d.build a 0 0)
      (hconn : Receiving d c a q j conn)
  | closed (ts : List Nat) (hthread : conn.thread = .ended) (hbytes : conn.wire = [])
      (hfed : Fed a fd st c.numReqs 0 ts) (hplaced : conn.placed = c.remaining d.build a 0 0)

/-- What the server does without the request thread. -/
theorem Talking.unseen (hsame : Unseen fd st st') (h : Talking d c a fd st conn) :
    Talking d c a fd st' conn := by
  cases h with
  | greeting got hthread hless hbytes hnew hplaced =>
      exact .greeting got hthread hless hbytes (hnew.unseen hsame) hplaced
  | counting hthread hbytes hnew hplaced =>
      exact .counting hthread hbytes (hnew.unseen hsame) hplaced
  | feeding q j ts hq hj hlast hfed hcur hplaced hconn =>
      exact .feeding q j ts hq hj hlast (hfed.unseen hsame) (hsame.current.trans hcur) hplaced hconn
  | closed ts hthread hbytes hfed hplaced =>
      exact .closed ts hthread hbytes (hfed.unseen hsame) hplaced

/-- Bytes move on their way. -/
theorem Talking.moved (h : Talking d c a fd st conn) (hthread' : conn'.thread = conn.thread)
    (hplaced' : conn'.placed = conn.placed) (hwire : conn'.wire = conn.wire) :
    Talking d c a fd st conn' := by
  cases h with
  | greeting got hthread hless hbytes hnew hplaced =>
      exact .greeting got (hthread'.trans hthread) hless (hwire ▸ hbytes) hnew
        (hplaced'.trans hplaced)
  | counting hthread hbytes hnew hplaced =>
      exact .counting (hthread'.trans hthread) (hwire.trans hbytes) hnew (hplaced'.trans hplaced)
  | feeding q j ts hq hj hlast hfed hcur hplaced hconn =>
      refine .feeding q j ts hq hj hlast hfed hcur (hplaced' ▸ hplaced) ?_
      cases hconn with
      | data got hnet hthread hbytes hless =>
          exact .data got hnet (hthread'.trans hthread) (hwire ▸ hbytes) hless
      | taskID e es hrest hthread hbytes =>
          exact .taskID e es hrest (hthread'.trans hthread) (hwire.trans hbytes)
      | waiting hno hrest hthread hbytes =>
          exact .waiting hno hrest (hthread'.trans hthread) (hwire.trans hbytes)
  | closed ts hthread hbytes hfed hplaced =>
      exact .closed ts (hthread'.trans hthread) (hwire.trans hbytes) hfed (hplaced'.trans hplaced)

namespace Client.Fits

/-- Before the next tensor. -/
theorem receiving (h : c.Fits d a) (hq : q ≤ c.numReqs) (hj : j < a.inputTensors.length)
    (hthread : conn.thread = d.nextTensor a.inputTensors)
    (hbytes : conn.wire = (c.remaining d.build a q j).flatMap encode) :
    Receiving d c a q j conn := by
  rw [Deployment.nextTensor, if_neg h.inputs] at hthread
  rcases Nat.lt_or_eq_of_le hq with hlt | heq
  · obtain ⟨data, hrest, hnet, hno⟩ := h.remaining_cons hlt hj
    cases hb : d.build with
    | net =>
        rw [if_pos hb] at hthread
        refine .data [] hb hthread hbytes fun e he => ?_
        rw [hrest] at he
        obtain rfl := Option.some.inj he
        have hpos := h.sized hb a.inputTensors[j] (List.getElem_mem hj)
        have hlen := hnet hb
        show 0 < data.length
        omega
    | noNet =>
        rw [if_neg (by rw [hb]; decide)] at hthread
        obtain rfl := hno hb
        refine .taskID _ _ hrest hthread ?_
        rw [hbytes, hrest]
        rfl
  · have hrest := remaining_last (b := d.build) (a := a) (j := j) heq
    rw [hrest] at hbytes
    cases hb : d.build with
    | net =>
        rw [if_pos hb] at hthread
        refine .data [] hb hthread (by rw [hrest, hbytes]; rfl) fun e he => ?_
        rw [hrest] at he
        cases he
    | noNet =>
        rw [if_neg (by rw [hb]; decide)] at hthread
        exact .waiting hb hrest hthread hbytes

end Client.Fits

/-! ## What a read does -/

section Read

variable {sys sys' : System} {ts : List Nat} {got : List UInt8}

/-- The server finds the application that the request thread has found. -/
theorem specs_find {name : List UInt8} (h : d.app? name = some a) :
    d.specs.reverse.find? (fun app => app.1 == a.name) = some (a.name, a.spec) := by
  obtain ⟨hname, before, after, hsplit, hbefore⟩ := List.find?_eq_some_iff_append.mp h
  rw [Deployment.specs, ← List.map_reverse, List.find?_map, Option.map_eq_some_iff]
  refine ⟨a, List.find?_eq_some_iff_append.mpr ⟨beq_self_eq_true a.name, before, after, hsplit,
    fun b hb => ?_⟩, rfl⟩
  have hne := hbefore b hb
  simp only [Bool.not_eq_true', beq_eq_false_iff_ne, ne_eq, Function.comp_apply] at hne ⊢
  intro heq
  rw [heq] at hne
  exact hne (eq_of_beq hname)

theorem connect_new {name : List UInt8} (h : d.app? name = some a) (hnew : New fd st) :
    Replies.step d.specs (.connect a.name fd) st = some (st.create a.name a.spec fd) := by
  simp only [Replies.step, Replies.connect, specs_find h, hnew.current, Option.bind_eq_bind,
    Option.bind_some, if_true]

@[simp] theorem setConn_server : (sys.setConn fd conn).server = sys.server := rfl

@[simp] theorem setConn_conns : (sys.setConn fd conn).conns fd = conn := by
  simp only [System.setConn, Function.update_self]

theorem setConn_other {other : Nat} (hne : fd ≠ other) :
    (sys.setConn other conn).conns fd = sys.conns fd := by
  simp only [System.setConn, Function.update_of_ne hne]

theorem current_eq {k : Replies.Instance} {t : Nat} {s : TensorSpec}
    (hcur : sys.server.current fd = some t) (hk : sys.server.instances[t]? = some k)
    (hs : a.inputTensors[k.arrived]? = some s) :
    Deployment.current sys fd a.inputTensors = some s := by
  simp only [Deployment.current, hcur, hk, hs, Option.bind_eq_bind, Option.bind_some]

/-- A piece of the name. -/
theorem read_name (hfits : c.Fits d a) (hthread : (sys.conns fd).thread = .name got)
    (hless : got.length < MAX_REQ_SIZE) (hbytes : got ++ (sys.conns fd).wire = c.sendRequest d.build)
    (hnew : New fd sys.server) (hplaced : (sys.conns fd).placed = [])
    (h : d.read fd n sys = some sys') : Talking d c a fd sys'.server (sys'.conns fd) := by
  simp only [Deployment.read, hthread] at h
  obtain ⟨⟨bs, conn⟩, hrecv, h⟩ := Option.bind_eq_some_iff.mp h
  obtain rfl := Option.some.inj h
  obtain ⟨hlen, hpos', hsize, hwire, hsame⟩ := recv_cases hrecv
  rw [setConn_server, setConn_conns]
  rw [hwire, ← List.append_assoc] at hbytes
  by_cases hfull : (got ++ bs).length = MAX_REQ_SIZE
  · rw [hfits.sendRequest_eq] at hbytes
    obtain ⟨hname, hrest⟩ := List.append_inj hbytes (hfull.trans (Client.Fits.length_name c).symm)
    refine .counting ?_ hrest hnew (hsame.trans hplaced)
    show (if _ then _ else _) = _
    rw [if_pos hfull, hname, hfits.appName_name]
  · refine .greeting (got ++ bs) (if_neg hfull) ?_ hbytes hnew (hsame.trans hplaced)
    rw [List.length_append] at hfull ⊢
    omega

/-- The number of inputs. -/
theorem read_numInput (hfits : c.Fits d a) (hthread : (sys.conns fd).thread = .numInput (chars c.model))
    (hbytes : (sys.conns fd).wire =
      intBytes c.numInput ++ (c.remaining d.build a 0 0).flatMap encode)
    (hnew : New fd sys.server) (hplaced : (sys.conns fd).placed = []) (hwhole : Whole sys (.read fd n))
    (h : d.read fd n sys = some sys') : Talking d c a fd sys'.server (sys'.conns fd) := by
  simp only [Deployment.read, hthread, hfits.app] at h
  obtain ⟨⟨x, conn⟩, hrx, h⟩ := Option.bind_eq_some_iff.mp h
  obtain ⟨server, hserver, h⟩ := Option.bind_eq_some_iff.mp h
  obtain rfl := Option.some.inj h
  obtain rfl := Option.some.inj ((connect_new hfits.app hnew).symm.trans hserver)
  obtain ⟨-, hrest, hsame⟩ := rxsize_intBytes hrx (hwhole (by rw [hthread]; rfl)) hbytes
  rw [setConn_server, setConn_conns]
  have hpos := List.length_pos_iff.mpr hfits.inputs
  refine .feeding 0 0 [sys.server.instances.length] (Nat.zero_le _) hpos (fun _ => rfl)
    (Fed.start hnew) (Function.update_self ..) ?_ (hfits.receiving (Nat.zero_le _) hpos rfl hrest)
  show conn.placed ++ _ = _
  rw [hsame, hplaced, List.nil_append]

/-- A piece of a tensor. -/
theorem read_data (hfits : c.Fits d a) (hq : q ≤ c.numReqs) (hj : j < a.inputTensors.length)
    (hlast : q = c.numReqs → j = 0) (hfed : Fed a fd sys.server q j ts)
    (hcur : sys.server.current fd = ts[q]?)
    (hplaced : (sys.conns fd).placed ++ c.remaining d.build a q j = c.remaining d.build a 0 0)
    (hnet : d.build = .net) (hthread : (sys.conns fd).thread = .data a.inputTensors got)
    (hbytes : got ++ (sys.conns fd).wire = (c.remaining d.build a q j).flatMap encode)
    (hless : ∀ e ∈ (c.remaining d.build a q j).head?, got.length < e.2.1.length)
    (h : d.read fd n sys = some sys') : Talking d c a fd sys'.server (sys'.conns fd) := by
  obtain ⟨t, k, -, hcurt, hk, -, -, harr⟩ := hfed.last hcur
  have hspec := current_eq hcurt hk (s := a.inputTensors[j])
    (by rw [harr]; exact List.getElem?_eq_getElem hj)
  have hpos := hfits.sized hnet a.inputTensors[j] (List.getElem_mem hj)
  simp only [Deployment.read, hthread, hspec, Option.bind_eq_bind, Option.bind_some,
    if_neg (Int.not_le.mpr hpos)] at h
  obtain ⟨⟨bs, conn⟩, hrecv, h⟩ := Option.bind_eq_some_iff.mp h
  obtain rfl := Option.some.inj h
  obtain ⟨hlen, hpos', hsize, hwire, hsame⟩ := recv_cases hrecv
  rw [setConn_server, setConn_conns]
  rw [hwire, ← List.append_assoc] at hbytes
  refine .feeding q j ts hq hj hlast hfed hcur (by show conn.placed ++ _ = _; rw [hsame, hplaced]) ?_
  rcases Nat.lt_or_eq_of_le hq with hlt | heq
  · obtain ⟨data, hrest, hdata, -⟩ := hfits.remaining_cons hlt hj
    have hdata := hdata hnet
    by_cases hfull : (got ++ bs).length = a.inputTensors[j].bytes.toNat
    · rw [hrest, List.flatMap_cons, encode] at hbytes
      obtain ⟨hall, hint⟩ := List.append_inj (hbytes.trans (List.append_assoc ..))
        (by dsimp only; omega)
      refine .taskID _ _ hrest ?_ hint
      show (if _ then _ else _) = _
      rw [if_pos hfull, hall]
    · refine .data (got ++ bs) hnet (if_neg hfull) hbytes fun e he => ?_
      rw [hrest] at he hless
      obtain rfl := Option.some.inj he
      have := hless _ rfl
      simp only [List.length_append] at hfull this ⊢
      omega
  · -- after the last request nothing comes
    rw [remaining_last heq, List.flatMap_nil, List.append_eq_nil_iff, List.append_eq_nil_iff] at hbytes
    rw [hbytes.1.2, List.length_nil] at hlen
    omega

/-- The id of a tensor. -/
theorem read_taskID {e : Nat × List UInt8 × Int} {es : List (Nat × List UInt8 × Int)}
    (hfits : c.Fits d a) (hq : q ≤ c.numReqs) (hj : j < a.inputTensors.length)
    (hfed : Fed a fd sys.server q j ts) (hcur : sys.server.current fd = ts[q]?)
    (hplaced : (sys.conns fd).placed ++ c.remaining d.build a q j = c.remaining d.build a 0 0)
    (hrest : c.remaining d.build a q j = e :: es)
    (hthread : (sys.conns fd).thread = .taskID a.inputTensors e.2.1)
    (hbytes : (sys.conns fd).wire = intBytes e.2.2 ++ es.flatMap encode)
    (hwhole : Whole sys (.read fd n)) (h : d.read fd n sys = some sys') :
    Talking d c a fd sys'.server (sys'.conns fd) := by
  obtain ⟨t, k, ht, hcurt, hk, hname, hspec, harr⟩ := hfed.last hcur
  have hs := current_eq hcurt hk (s := a.inputTensors[j])
    (by rw [harr]; exact List.getElem?_eq_getElem hj)
  have hid : k.spec.inputTensors[k.arrived]? = some a.inputTensors[j].id := by
    rw [hspec, harr, App.spec_inputTensors, List.getElem?_map, List.getElem?_eq_getElem hj]
    rfl
  have hlt : q < c.numReqs := by
    refine Nat.lt_of_le_of_ne hq fun heq => ?_
    rw [remaining_last heq] at hrest
    cases hrest
  obtain ⟨data, hcons, -, -⟩ := hfits.remaining_cons hlt hj
  obtain ⟨rfl, rfl⟩ := List.cons.inj (hrest.symm.trans hcons)
  simp only [Deployment.read, hthread, hs, Option.bind_eq_bind, Option.bind_some] at h
  obtain ⟨⟨tid, conn⟩, hrx, h⟩ := Option.bind_eq_some_iff.mp h
  obtain ⟨server, hserver, h⟩ := Option.bind_eq_some_iff.mp h
  obtain ⟨htid, hwire, hsame⟩ := rxsize_intBytes hrx (hwhole (by rw [hthread]; rfl)) hbytes
  have hnum := hfits.numReqs
  rw [readInt_intBytes (by dsimp only; omega) (by dsimp only; omega)] at htid
  obtain rfl : tid = q + 1 := htid
  have hpos : (0 : Int) < q + 1 := by omega
  rw [if_neg (Int.not_le.mpr hpos)] at h
  obtain rfl := Option.some.inj h
  have hstep := (Replies.recvTensor_pos hcurt hk hid hpos).symm.trans hserver
  rw [hspec, App.spec_inputTensors, List.length_map, harr, hname] at hstep
  obtain rfl := Option.some.inj hstep
  rw [setConn_server, setConn_conns]
  have hreceived := (hfed.receive ht hj).unseen
    (Replies.unseen_place t a.spec (a.spec.getNextDsts a.inputTensors[j].id))
  have hplaced' : conn.placed ++ [(a.inputTensors[j].id, data, (q + 1 : Int))] ++
      (if j + 1 = a.inputTensors.length then c.remaining d.build a (q + 1) 0
        else c.remaining d.build a q (j + 1)) = c.remaining d.build a 0 0 := by
    rw [hsame, List.append_assoc, List.singleton_append, ← hrest, hplaced]
  by_cases hdone : j + 1 = a.inputTensors.length
  · rw [if_pos hdone] at hplaced' hwire
    rw [hdone] at hreceived
    have hpos := Nat.zero_lt_of_lt hj
    have hlen : ((sys.server.receive t fd (q + 1)).place t a.spec
        (a.spec.getNextDsts a.inputTensors[j].id)).instances.length = sys.server.instances.length := by
      rw [Replies.place_eq]
      exact List.length_modify ..
    have hcreated := hreceived.create hpos
    rw [hlen] at hcreated
    refine .feeding (q + 1) 0 (ts ++ [sys.server.instances.length]) hlt hpos (fun _ => rfl) ?_ ?_
      hplaced' (hfits.receiving hlt hpos rfl hwire)
    · show Fed a fd (if _ then _ else _) _ _ _
      rw [if_pos hdone]
      exact hcreated
    · show (if _ then _ else _ : Server).current fd = _
      rw [if_pos hdone, ← hfed.length, List.getElem?_concat_length, ← hlen]
      exact Function.update_self ..
  · rw [if_neg hdone] at hplaced' hwire
    have hj' : j + 1 < a.inputTensors.length := by omega
    refine .feeding q (j + 1) ts hq hj' (fun heq => absurd heq (Nat.ne_of_lt hlt)) ?_ ?_ hplaced'
      (hfits.receiving hq hj' rfl hwire)
    · show Fed a fd (if _ then _ else _) _ _ _
      rw [if_neg hdone]
      exact hreceived
    · show (if _ then _ else _ : Server).current fd = _
      rw [if_neg hdone, Replies.place_eq]
      exact hcur

/-- The client has closed its socket. -/
theorem read_waiting (hq : q ≤ c.numReqs) (hj : j < a.inputTensors.length)
    (hfed : Fed a fd sys.server q j ts) (hcur : sys.server.current fd = ts[q]?)
    (hplaced : (sys.conns fd).placed ++ c.remaining d.build a q j = c.remaining d.build a 0 0)
    (hfits : c.Fits d a) (hlast : q = c.numReqs → j = 0) (hrest : c.remaining d.build a q j = [])
    (hthread : (sys.conns fd).thread = .taskID a.inputTensors []) (hbytes : (sys.conns fd).wire = [])
    (hwhole : Whole sys (.read fd n)) (h : d.read fd n sys = some sys') :
    Talking d c a fd sys'.server (sys'.conns fd) := by
  obtain ⟨t, k, ht, hcurt, hk, hname, hspec, harr⟩ := hfed.last hcur
  have hs := current_eq hcurt hk (s := a.inputTensors[j])
    (by rw [harr]; exact List.getElem?_eq_getElem hj)
  have heq : q = c.numReqs := by
    refine Nat.le_antisymm hq (Nat.le_of_not_lt fun hlt => ?_)
    obtain ⟨data, hcons, -, -⟩ := hfits.remaining_cons hlt hj
    rw [hrest] at hcons
    cases hcons
  obtain rfl := hlast heq
  simp only [Deployment.read, hthread, hs, Option.bind_eq_bind, Option.bind_some] at h
  obtain ⟨⟨tid, conn⟩, hrx, h⟩ := Option.bind_eq_some_iff.mp h
  obtain ⟨server, hserver, h⟩ := Option.bind_eq_some_iff.mp h
  rcases rxsize_cases hrx (hwhole (by rw [hthread]; rfl)) with ⟨htid, hsame, -⟩ | ⟨-, bs, hlen, -, hbs⟩
  · subst htid hsame
    rw [if_pos (le_refl (0 : Int))] at h
    obtain rfl := Option.some.inj h
    rcases Replies.recvTensor_cases hserver with ⟨-, rfl⟩ | ⟨hpos, -⟩
    · rw [setConn_server, setConn_conns]
      rw [hrest, List.append_nil] at hplaced
      refine .closed ts rfl hbytes ?_ hplaced
      obtain ⟨hlength, heach, honly, hanswered⟩ := heq ▸ hfed
      exact ⟨hlength, heach, honly, hanswered⟩
    · exact absurd hpos (lt_irrefl 0)
  · rw [hbytes] at hbs
    rw [(List.append_eq_nil_iff.mp hbs.symm).1] at hlen
    cases hlen

/-- **A read.** -/
theorem Talking.read (hfits : c.Fits d a) (h : Talking d c a fd sys.server (sys.conns fd))
    (hwhole : Whole sys (.read fd n)) (hread : d.read fd n sys = some sys') :
    Talking d c a fd sys'.server (sys'.conns fd) := by
  cases h with
  | greeting got hthread hless hbytes hnew hplaced =>
      exact read_name hfits hthread hless hbytes hnew hplaced hread
  | counting hthread hbytes hnew hplaced =>
      exact read_numInput hfits hthread hbytes hnew hplaced hwhole hread
  | feeding q j ts hq hj hlast hfed hcur hplaced hconn =>
      cases hconn with
      | data got hnet hthread hbytes hless =>
          exact read_data hfits hq hj hlast hfed hcur hplaced hnet hthread hbytes hless hread
      | taskID e es hrest hthread hbytes =>
          exact read_taskID hfits hq hj hfed hcur hplaced hrest hthread hbytes hwhole hread
      | waiting hno hrest hthread hbytes =>
          exact read_waiting hq hj hfed hcur hplaced hfits hlast hrest hthread hbytes hwhole hread
  | closed ts hthread hbytes hfed hplaced =>
      simp only [Deployment.read, hthread] at hread
      cases hread

end Read

end Clients

end Glet
