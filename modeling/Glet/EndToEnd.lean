import Glet.ClientRuns
import Glet.Progress

/-!
# Runs of clients and frontend

What is received from a client is what it has sent, whatever the pieces are in
which its bytes arrive, and the ids it gets are those of its requests, each as
finished once at most (`requests_delivered`). When everything has come to rest,
each request was answered, so that the client has got as many ids as it waits
for (`requests_answered`).
-/

namespace Glet.Clients

open Glet.Replies (Server Instance Unseen Valid Quiet AtRest)
open Glet.ProxyWire (Build)

variable {d : Deployment} {c : Client} {a : App} {fd n : Nat} {sys sys' : System}

/-! ## Steps of the system -/

theorem write_cases (h : Deployment.write fd n sys = some sys') : ∃ conn,
    sys' = sys.setConn fd conn ∧ conn.thread = (sys.conns fd).thread ∧
      conn.placed = (sys.conns fd).placed ∧ conn.wire = (sys.conns fd).wire := by
  unfold Deployment.write at h
  dsimp only at h
  split at h
  case isFalse => cases h
  case isTrue =>
    refine ⟨_, (Option.some.inj h).symm, rfl, rfl, ?_⟩
    simp only [Conn.wire, List.append_assoc, List.take_append_drop]

/-- A read is one of its own socket, and the server connects, receives a tensor
or does not move. -/
theorem read_cases (h : d.read fd n sys = some sys') : ∃ conn server,
    sys' = { sys with server }.setConn fd conn ∧ (server = sys.server ∨
      (∃ name, Replies.step d.specs (.connect name fd) sys.server = some server) ∨
      ∃ tid, Replies.step d.specs (.recvTensor fd tid) sys.server = some server) := by
  unfold Deployment.read at h
  dsimp only at h
  split at h
  case h_1 got hthread =>
    obtain ⟨⟨bs, conn⟩, -, h⟩ := Option.bind_eq_some_iff.mp h
    exact ⟨_, _, (Option.some.inj h).symm, Or.inl rfl⟩
  case h_2 name hthread =>
    obtain ⟨⟨x, conn⟩, -, h⟩ := Option.bind_eq_some_iff.mp h
    dsimp only at h
    split at h
    case h_1 => exact ⟨_, _, (Option.some.inj h).symm, Or.inl rfl⟩
    case h_2 app happ =>
      obtain ⟨server, hserver, h⟩ := Option.bind_eq_some_iff.mp h
      exact ⟨_, _, (Option.some.inj h).symm, Or.inr (Or.inl ⟨app.name, hserver⟩)⟩
  case h_3 specs got hthread =>
    obtain ⟨spec, -, h⟩ := Option.bind_eq_some_iff.mp h
    split at h
    case isTrue => exact ⟨_, _, (Option.some.inj h).symm, Or.inl rfl⟩
    case isFalse =>
      obtain ⟨⟨bs, conn⟩, -, h⟩ := Option.bind_eq_some_iff.mp h
      exact ⟨_, _, (Option.some.inj h).symm, Or.inl rfl⟩
  case h_4 specs data hthread =>
    obtain ⟨spec, -, h⟩ := Option.bind_eq_some_iff.mp h
    obtain ⟨⟨tid, conn⟩, -, h⟩ := Option.bind_eq_some_iff.mp h
    obtain ⟨server, hserver, h⟩ := Option.bind_eq_some_iff.mp h
    split at h
    · exact ⟨_, _, (Option.some.inj h).symm, Or.inr (Or.inr ⟨tid, hserver⟩)⟩
    · exact ⟨_, _, (Option.some.inj h).symm, Or.inr (Or.inr ⟨tid, hserver⟩)⟩
  case h_5 => cases h

theorem serve_cases {act : Replies.Act} (h : d.serve act sys = some sys') :
    act.isServing = true ∧ ∃ server, Replies.step d.specs act sys.server = some server ∧
      sys' = { sys with server } := by
  unfold Deployment.serve at h
  split at h
  case h_1 => cases h
  case h_2 => cases h
  case h_3 hconnect hrecv =>
    obtain ⟨server, hserver, rfl⟩ := Option.map_eq_some_iff.mp h
    refine ⟨?_, server, hserver, rfl⟩
    cases act with
    | connect name fd => exact absurd rfl (hconnect name fd)
    | recvTensor fd tid => exact absurd rfl (hrecv fd tid)
    | _ => rfl

/-- The server in the system is the server alone. -/
theorem serves : Machine.Simulates d.step (Replies.step d.specs) fun sys st => sys.server = st := by
  intro act sys sys' st hst hstep
  subst hst
  cases act with
  | write fd n =>
      obtain ⟨conn, rfl, -⟩ := write_cases hstep
      exact ⟨_, .refl _, rfl⟩
  | read fd n =>
      obtain ⟨conn, server, rfl, rfl | ⟨name, hserver⟩ | ⟨tid, hserver⟩⟩ := read_cases hstep
      · exact ⟨_, .refl _, rfl⟩
      · exact ⟨server, Machine.Reaches.next (.refl _) hserver, rfl⟩
      · exact ⟨server, Machine.Reaches.next (.refl _) hserver, rfl⟩
  | serve act =>
      obtain ⟨-, server, hserver, rfl⟩ := serve_cases hstep
      exact ⟨server, Machine.Reaches.next (.refl _) hserver, rfl⟩

theorem Talking.step {act : Act} (hfits : c.Fits d a) (hv : Valid sys.server)
    (h : Talking d c a fd sys.server (sys.conns fd)) (hwhole : Whole sys act)
    (hstep : d.step act sys = some sys') : Talking d c a fd sys'.server (sys'.conns fd) := by
  cases act with
  | write other n =>
      obtain ⟨conn, rfl, hthread, hplaced, hwire⟩ := write_cases hstep
      by_cases hfd : fd = other
      · subst hfd
        rw [setConn_server, setConn_conns]
        exact h.moved hthread hplaced hwire
      · rw [setConn_server, setConn_other hfd]
        exact h
  | read other n =>
      by_cases hfd : fd = other
      · subst hfd
        exact h.read hfits hwhole hstep
      · obtain ⟨conn, server, rfl, hserver⟩ := read_cases hstep
        rw [setConn_server, setConn_other hfd]
        rcases hserver with rfl | ⟨name, hserver⟩ | ⟨tid, hserver⟩
        · exact h
        · obtain ⟨spec, rfl⟩ := Replies.connect_cases hserver
          exact h.unseen (Replies.unseen_create (Ne.symm hfd))
        · exact h.unseen (Replies.unseen_recvTensor hv.own (Ne.symm hfd) hserver)
  | serve act =>
      obtain ⟨hserve, server, hserver, rfl⟩ := serve_cases hstep
      exact h.unseen (Replies.unseen_serve hv hserve hserver)

theorem talking_start (hc : d.clients fd = some c) :
    Talking d c a fd d.start.server (d.start.conns fd) := by
  refine .greeting [] rfl (by decide) ?_ ⟨rfl, nofun, nofun⟩ rfl
  show [] ++ ([] ++ (d.clients fd).elim [] _) = _
  rw [hc]
  rfl

/-- What holds of a client in every run. -/
theorem talking_run {acts : List Act} (hrun : Machine.run d.step acts d.start = some sys)
    (hwhole : Machine.Along d.step Whole acts d.start) (hc : d.clients fd = some c)
    (hfits : c.Fits d a) : Talking d c a fd sys.server (sys.conns fd) ∧
      Machine.Reaches (Replies.step d.specs) Replies.start sys.server := by
  refine Machine.run_along (I := fun sys => Talking d c a fd sys.server (sys.conns fd) ∧
    Machine.Reaches (Replies.step d.specs) Replies.start sys.server) ?_ hwhole hrun
    ⟨talking_start hc, .refl _⟩
  rintro act sys sys' ⟨htalk, hreach⟩ hwhole hstep
  obtain ⟨acts, hserver⟩ := hreach
  obtain ⟨st', hnext, rfl⟩ := serves act sys sys' sys.server rfl hstep
  exact ⟨htalk.step hfits (Replies.inv_run hserver).1 hwhole hstep, Machine.Reaches.trans ⟨acts, hserver⟩ hnext⟩

/-! ## Ids -/

/-- The ids that have been sent to a client. -/
def System.ids (sys : System) (fd : Nat) : List Int :=
  (sys.server.replies.filter fun r => r.socketFD == fd).map (·.taskID)

/-- How often a client has got an id because the instance was finished. -/
def System.finished (sys : System) (fd : Nat) (id : Int) : Nat :=
  sys.server.replies.countP fun r => r.socketFD == fd && r.taskID == id && !r.dropped

variable {q j t i : Nat} {ts : List Nat}

/-- Before anything is received there are no ids, and then the instances are
those of the requests so far. -/
theorem Talking.fed {conn : Conn} {st : Server} (h : Talking d c a fd st conn) : New fd st ∨
    ∃ q j ts, Fed a fd st q j ts ∧ q ≤ c.numReqs ∧ (q = c.numReqs → j = 0) := by
  cases h with
  | greeting got hthread hless hbytes hnew hplaced => exact Or.inl hnew
  | counting hthread hbytes hnew hplaced => exact Or.inl hnew
  | feeding q j ts hq hj hlast hfed hcur hplaced hconn =>
      exact Or.inr ⟨q, j, ts, hfed, hq, hlast⟩
  | closed ts hthread hbytes hfed hplaced =>
      exact Or.inr ⟨c.numReqs, 0, ts, hfed, le_refl _, fun _ => rfl⟩

theorem Talking.ids_range (h : Talking d c a fd sys.server (sys.conns fd)) :
    ∀ id ∈ sys.ids fd, 1 ≤ id ∧ id ≤ c.numReqs := by
  intro id hid
  obtain ⟨r, hr, rfl⟩ := List.mem_map.mp hid
  obtain ⟨hmem, hfd⟩ := List.mem_filter.mp hr
  rcases h.fed with hnew | ⟨q, j, ts, hfed, hq, hlast⟩
  · exact absurd (eq_of_beq hfd) (hnew.replies r hmem)
  · obtain ⟨i, hi, hid, hsome⟩ := hfed.answered r hmem (eq_of_beq hfd)
    have hlt := (List.getElem?_eq_some_iff.mp hi).1
    rw [hfed.length] at hlt
    rw [hid]
    omega

/-- The answers under an id are those of one instance. -/
theorem Fed.finished_eq (hfed : Fed a fd sys.server q j ts) (hv : Valid sys.server)
    (hi : ts[i]? = some t) (hsome : i < q ∨ 0 < j) :
    sys.finished fd (i + 1) = (sys.server.replies.map Replies.Reply.entry).count (t, false) := by
  rw [System.finished, List.count, List.countP_map]
  refine List.countP_congr fun r hr => ?_
  simp only [Bool.and_eq_true, beq_iff_eq, Bool.not_eq_true', Function.comp_apply,
    Replies.Reply.entry, Prod.mk.injEq]
  constructor
  · rintro ⟨⟨hfd, hid⟩, hdropped⟩
    obtain ⟨i', hi', hid', -⟩ := hfed.answered r hr hfd
    obtain rfl : i' = i := by omega
    exact ⟨Option.some.inj (hi'.symm.trans hi), hdropped⟩
  · rintro ⟨rfl, hdropped⟩
    obtain ⟨k, hk, hkfd, -, -, -, hkid⟩ := hfed.each i r.task hi
    obtain ⟨-, k', hk', hfd⟩ := hv.replies r hr
    obtain rfl := Option.some.inj (hk.symm.trans hk')
    have hrfd := hfd.symm.trans hkfd
    obtain ⟨i', hi', hid', hsome'⟩ := hfed.answered r hr hrfd
    obtain ⟨k', hk', -, -, -, -, hkid'⟩ := hfed.each i' r.task hi'
    obtain rfl := Option.some.inj (hk.symm.trans hk')
    rw [if_pos hsome'] at hkid'
    rw [if_pos hsome] at hkid
    exact ⟨⟨hrfd, hid'.trans (hkid'.symm.trans hkid)⟩, hdropped⟩

theorem Talking.finished_le_one (h : Talking d c a fd sys.server (sys.conns fd))
    (hv : Valid sys.server) (hb : Replies.Books sys.server) (id : Int) : sys.finished fd id ≤ 1 := by
  by_contra hmany
  obtain ⟨r, hr, hp⟩ := List.countP_pos_iff.mp (Nat.lt_of_lt_of_le Nat.one_pos (Nat.le_of_not_le hmany))
  simp only [Bool.and_eq_true, beq_iff_eq, Bool.not_eq_true'] at hp
  obtain ⟨⟨hfd, rfl⟩, -⟩ := hp
  rcases h.fed with hnew | ⟨q, j, ts, hfed, -⟩
  · exact hnew.replies r hr hfd
  · obtain ⟨i, hi, hid, hsome⟩ := hfed.answered r hr hfd
    rw [hid, hfed.finished_eq hv hi hsome] at hmany
    have hanswers := Replies.answers_le hv hb r.task false
    have hone := Replies.finished_le_one hv hb r.task
    omega

theorem Talking.placed_prefix (h : Talking d c a fd sys.server (sys.conns fd)) :
    (sys.conns fd).placed <+: (List.range c.numReqs).flatMap (c.delivery d.build a) := by
  have hall : c.remaining d.build a 0 0 = (List.range c.numReqs).flatMap (c.delivery d.build a) := by
    rw [remaining_zero (Nat.zero_le _), Client.later, Nat.sub_zero, ← List.range_eq_range']
  rw [← hall]
  cases h with
  | greeting got hthread hless hbytes hnew hplaced => rw [hplaced]; exact List.nil_prefix
  | counting hthread hbytes hnew hplaced => rw [hplaced]; exact List.nil_prefix
  | feeding q j ts hq hj hlast hfed hcur hplaced hconn => exact ⟨_, hplaced⟩
  | closed ts hthread hbytes hfed hplaced => rw [hplaced]

/-- **Requests are delivered.** In every run in which no `int` is torn, with
all other bytes sent and received in any pieces, all other threads and all other
clients doing what they do: the tensors that are placed on queues for a client
are a prefix of those it has to send, with their nodes and ids; every id it gets
is one of its own requests, so that it writes into its array; and no id comes
twice as finished. -/
theorem requests_delivered {acts : List Act} (hrun : Machine.run d.step acts d.start = some sys)
    (hwhole : Machine.Along d.step Whole acts d.start) (hc : d.clients fd = some c)
    (hfits : c.Fits d a) :
    (sys.conns fd).placed <+: (List.range c.numReqs).flatMap (c.delivery d.build a) ∧
      (∀ id ∈ sys.ids fd, 1 ≤ id ∧ id ≤ c.numReqs) ∧
      (∀ written, c.recvRequest (sys.ids fd) = some written → ∀ i ∈ written, 0 ≤ i ∧ i < c.numReqs) ∧
      ∀ id, sys.finished fd id ≤ 1 := by
  obtain ⟨htalk, acts, hserver⟩ := talking_run hrun hwhole hc hfits
  obtain ⟨hv, hb⟩ := Replies.inv_run hserver
  refine ⟨htalk.placed_prefix, htalk.ids_range, fun written hwritten i hi => ?_,
    htalk.finished_le_one hv hb⟩
  unfold Client.recvRequest at hwritten
  split at hwritten
  case isFalse => cases hwritten
  case isTrue =>
    obtain rfl := Option.some.inj hwritten
    obtain ⟨id, hid, rfl⟩ := List.mem_map.mp hi
    have := htalk.ids_range id (List.mem_of_mem_take hid)
    omega

/-- Two models on a tensor of one element; the output waits for the first only. -/
def forkApp : App where
  name := "fork"
  inputTensors := [⟨[1], [1, 2], 0, .fp32⟩]
  models := [⟨.model, "lenet1", 1, [0], [3]⟩, ⟨.model, "vgg16", 2, [0], []⟩]
  outputs := [⟨.output, "None", 3, [1], []⟩]

def twoRequests : Client where
  model := "fork"
  after := List.replicate 20 7
  numReqs := 2
  img := fun i => ⟨1, [.ofNat i, 1, 2, 3]⟩
  mnist := fun _ => ⟨0, []⟩
  token := fun _ => ⟨0, []⟩
  readable := by decide

def forkSystem : Deployment where
  build := .net
  apps := [forkApp]
  clients := fun fd => if fd = 7 then some twoRequests else none

theorem fork_client : forkSystem.clients 7 = some twoRequests := rfl

theorem fork_fits : twoRequests.Fits forkSystem forkApp where
  app := rfl
  short := by decide +kernel
  nonzero := by decide +kernel
  inputs := List.cons_ne_nil _ _
  sized := by decide
  tensors := fun _ _ => .cons (fun _ => rfl) .nil
  numReqs := by decide

/-- The name comes in two pieces, and so does the first tensor; the second
request is answered while the first one waits. -/
def forkActs : List Act :=
  [.write 7 22, .read 7 13, .read 7 7, .write 7 18, .read 7 4, .read 7 1, .read 7 3, .read 7 4,
    .read 7 4, .read 7 4] ++
  ([.pop 0 "lenet1", .pop 1 "lenet1", .send 1, .finish 0, .sendResult 0, .report 0, .reply "fork"] :
    List Replies.Act).map .serve

theorem requests_delivered_fork :
    ∃ sys, Machine.run forkSystem.step forkActs forkSystem.start = some sys ∧
      sys.ids 7 = [2] ∧ sys.finished 7 2 ≤ 1 ∧
      (sys.conns 7).placed <+: [(0, [0, 1, 2, 3], 1), (0, [1, 1, 2, 3], 2)] := by
  obtain ⟨sys, hrun, hp⟩ := Machine.run_any (show (Machine.run forkSystem.step forkActs
    forkSystem.start).any (fun sys => decide (sys.ids 7 = [2])) = true by decide +kernel)
  have hdelivered := requests_delivered hrun (by decide +kernel) fork_client fork_fits
  have hall : (List.range twoRequests.numReqs).flatMap (twoRequests.delivery forkSystem.build forkApp) =
      [(0, [0, 1, 2, 3], 1), (0, [1, 1, 2, 3], 2)] := by decide +kernel
  exact ⟨sys, hrun, of_decide_eq_true hp, hdelivered.2.2.2 2, hall ▸ hdelivered.1⟩

/-! ## Rest -/

/-- Once all bytes were received, so were all requests. -/
theorem Talking.all_received (h : Talking d c a fd sys.server (sys.conns fd)) (hfits : c.Fits d a)
    (hwire : (sys.conns fd).wire = []) : (∃ ts, Fed a fd sys.server c.numReqs 0 ts) ∧
      (sys.conns fd).placed = c.remaining d.build a 0 0 := by
  cases h with
  | greeting got hthread hless hbytes hnew hplaced =>
      have hlen := congrArg List.length hbytes
      rw [hwire, hfits.sendRequest_eq, List.length_append, List.length_append,
        Client.Fits.length_name, List.length_nil] at hlen
      omega
  | counting hthread hbytes hnew hplaced =>
      have hlen := congrArg List.length hbytes
      rw [hwire, List.length_append, length_intBytes, List.length_nil] at hlen
      omega
  | feeding q j ts hq hj hlast hfed hcur hplaced hconn =>
      suffices hnil : c.remaining d.build a q j = [] by
        have heq : q = c.numReqs := by
          refine Nat.le_antisymm hq (Nat.le_of_not_lt fun hlt => ?_)
          obtain ⟨data, hcons, -⟩ := hfits.remaining_cons hlt hj
          rw [hnil] at hcons
          cases hcons
        obtain rfl := hlast heq
        subst heq
        rw [hnil, List.append_nil] at hplaced
        exact ⟨⟨ts, hfed⟩, hplaced⟩
      cases hconn with
      | data got hnet hthread hbytes hless =>
          by_contra hne
          obtain ⟨e, es, hrest⟩ := List.exists_cons_of_ne_nil hne
          have hlen := congrArg List.length hbytes
          have hshort := hless e (by rw [hrest]; rfl)
          rw [hwire, hrest, List.flatMap_cons, encode, List.length_append, List.length_append,
            List.length_append, List.length_nil] at hlen
          omega
      | taskID e es hrest hthread hbytes =>
          have hlen := congrArg List.length hbytes
          rw [hwire, List.length_append, length_intBytes, List.length_nil] at hlen
          omega
      | waiting hno hrest hthread hbytes => exact hrest
  | closed ts hthread hbytes hfed hplaced => exact ⟨⟨ts, hfed⟩, hplaced⟩

/-- The ids of all requests. -/
def Client.allIds (c : Client) : List Int := (List.range c.numReqs).map fun i : Nat => (i : Int) + 1

theorem nodup_allIds (c : Client) : c.allIds.Nodup :=
  List.nodup_range.map fun i j (h : (i : Int) + 1 = j + 1) => by omega

theorem finished_le_count (sys : System) (fd : Nat) (id : Int) :
    sys.finished fd id ≤ (sys.ids fd).count id := by
  rw [System.finished, System.ids, List.count, List.countP_map, List.countP_filter]
  refine List.countP_mono_left fun r _ hr => ?_
  simp only [Bool.and_eq_true, Function.comp_apply] at hr ⊢
  exact ⟨hr.1.2, hr.1.1⟩

/-- Without drops every id comes from an instance that was finished. -/
theorem count_ids (h : ∀ r ∈ sys.server.replies, r.socketFD = fd → r.dropped = false) (id : Int) :
    (sys.ids fd).count id = sys.finished fd id := by
  rw [System.finished, System.ids, List.count, List.countP_map, List.countP_filter]
  refine List.countP_congr fun r hr => ?_
  simp only [Bool.and_eq_true, Function.comp_apply, Bool.not_eq_true', beq_iff_eq]
  constructor
  · rintro ⟨hid, hfd⟩
    exact ⟨⟨hfd, hid⟩, h r hr hfd⟩
  · rintro ⟨⟨hfd, hid⟩, -⟩
    exact ⟨hid, hfd⟩

/-- All requests of a client were received, and nothing of its instances is on its
way. -/
theorem Talking.answered (h : Talking d c a fd sys.server (sys.conns fd))
    (hserver : Machine.Reaches (Replies.step d.specs) Replies.start sys.server)
    (hfits : c.Fits d a) (hg : a.spec.Acyclic) (hf : a.spec.Forest)
    (hfed : a.spec.getInputforOutput ≠ [])
    (hmodels : ∀ f ∈ a.spec.getInputforOutput, a.spec.isModel f = true)
    (hwire : (sys.conns fd).wire = [])
    (hquiet : ∀ t k, sys.server.instances[t]? = some k → k.spec = a.spec → Quiet sys.server t k) :
    (sys.conns fd).placed = (List.range c.numReqs).flatMap (c.delivery d.build a) ∧
      (∀ i < c.numReqs, sys.finished fd (i + 1) = 1) ∧
      ∃ written, c.recvRequest (sys.ids fd) = some written ∧
        ((∀ r ∈ sys.server.replies, r.socketFD = fd → r.dropped = false) →
          written.Perm ((List.range c.numReqs).map fun i : Nat => (i : Int))) := by
  obtain ⟨acts, hserver⟩ := hserver
  obtain ⟨⟨hv, hb⟩, href⟩ := Replies.refines_run hserver
  obtain ⟨⟨ts, hts⟩, hplaced⟩ := h.all_received hfits hwire
  have hfinished : ∀ i < c.numReqs, sys.finished fd (i + 1) = 1 := by
    intro i hi
    have hlt : i < ts.length := by
      rw [hts.length]
      omega
    obtain ⟨k, hk, -, -, hspec, harr, -⟩ := hts.each i ts[i] (List.getElem?_eq_getElem hlt)
    rw [if_pos hi] at harr
    have hanswers := (hquiet ts[i] k hk hspec).answers hb href hk (hspec ▸ hg) (hspec ▸ hf)
      (hspec ▸ hfed) (hspec ▸ hmodels) (by rw [harr, hspec, App.spec_inputTensors, List.length_map])
    rw [hts.finished_eq hv (List.getElem?_eq_getElem hlt) (Or.inl hi)]
    exact hanswers.1
  have hsub : c.allIds ⊆ sys.ids fd := by
    intro id hid
    obtain ⟨i, hi, rfl⟩ := List.mem_map.mp hid
    have hone := hfinished i (List.mem_range.mp hi)
    have hle := finished_le_count sys fd (i + 1)
    exact List.count_pos_iff.mp (by omega)
  have hlength : c.allIds.length = c.numReqs := by
    rw [Client.allIds, List.length_map, List.length_range]
  have henough := ((nodup_allIds c).subperm hsub).length_le
  rw [hlength] at henough
  refine ⟨?_, hfinished, _, if_pos henough, fun hkept => ?_⟩
  · rw [hplaced, remaining_zero (Nat.zero_le _), Client.later, Nat.sub_zero, ← List.range_eq_range']
  · have hnodup : (sys.ids fd).Nodup := by
      refine List.nodup_iff_count_le_one.mpr fun id => ?_
      rw [count_ids hkept]
      exact h.finished_le_one hv hb id
    have hperm : (sys.ids fd).Perm c.allIds := by
      refine (List.perm_ext_iff_of_nodup hnodup (nodup_allIds c)).mpr fun id => ⟨fun hid => ?_, fun hid => hsub hid⟩
      obtain ⟨hpos, hle⟩ := h.ids_range id hid
      exact List.mem_map.mpr ⟨(id - 1).toNat, List.mem_range.mpr (by omega), by omega⟩
    rw [List.take_of_length_le (by rw [hperm.length_eq, hlength])]
    refine (hperm.map _).trans (List.Perm.of_eq ?_)
    rw [Client.allIds, List.map_map]
    exact List.map_congr_left fun i _ => by simp

/-- **Requests are answered.** When all that a client has sent was received and
the server is at rest, every request of the client was answered as finished
exactly once. So the client has got as many ids as it waits for; and if none of
its requests was dropped, it has written every entry of its array once. -/
theorem requests_answered {acts : List Act} (hrun : Machine.run d.step acts d.start = some sys)
    (hwhole : Machine.Along d.step Whole acts d.start) (hc : d.clients fd = some c)
    (hfits : c.Fits d a) (hg : a.spec.Acyclic) (hf : a.spec.Forest)
    (hfed : a.spec.getInputforOutput ≠ [])
    (hmodels : ∀ f ∈ a.spec.getInputforOutput, a.spec.isModel f = true)
    (hsent : (sys.conns fd).toSend = [] ∧ (sys.conns fd).arrived = []) (hrest : AtRest sys.server) :
    (sys.conns fd).placed = (List.range c.numReqs).flatMap (c.delivery d.build a) ∧
      (∀ i < c.numReqs, sys.finished fd (i + 1) = 1) ∧
      ∃ written, c.recvRequest (sys.ids fd) = some written ∧
        ((∀ r ∈ sys.server.replies, r.socketFD = fd → r.dropped = false) →
          written.Perm ((List.range c.numReqs).map fun i : Nat => (i : Int))) := by
  obtain ⟨htalk, hserver⟩ := talking_run hrun hwhole hc hfits
  have hwire : (sys.conns fd).wire = [] := by
    rw [Conn.wire, hsent.1, hsent.2]
    rfl
  exact htalk.answered hserver hfits hg hf hfed hmodels hwire fun t k _ _ => hrest.quiet t k

theorem forkApp_spec : forkApp.spec = Replies.fork := rfl

theorem fork_names (id : Nat) :
    Replies.fork.getModelName id ∈ ["", "Input", "lenet1", "vgg16", "None"] := by
  rcases id with _ | _ | _ | _ | id
  all_goals simp [AppSpec.getModelName, Replies.fork, AppSpec.setupModelDependency]

/-- The other requests are executed, too. -/
def forkRest : List Act :=
  forkActs ++ ([.send 0, .finish 1, .sendResult 1, .report 1, .pop 0 "vgg16", .pop 0 "vgg16", .send 0,
    .finish 2, .finish 2, .sendResult 2, .sendResult 2, .reply "fork"] : List Replies.Act).map .serve

theorem requests_answered_fork :
    ∃ sys, Machine.run forkSystem.step forkRest forkSystem.start = some sys ∧
      sys.ids 7 = [2, 1] ∧ sys.finished 7 1 = 1 ∧ sys.finished 7 2 = 1 := by
  obtain ⟨sys, hrun, hp⟩ := Machine.run_any (show (Machine.run forkSystem.step forkRest
    forkSystem.start).any (fun sys => decide (sys.ids 7 = [2, 1] ∧
      ((sys.conns 7).toSend = [] ∧ (sys.conns 7).arrived = []) ∧
      (∀ k ∈ sys.server.instances, k.name ∈ ["fork"] ∧ k.spec.modelTable = Replies.fork.modelTable) ∧
      (∀ name ∈ ["", "Input", "lenet1", "vgg16", "None"], sys.server.reqList name = []) ∧
      sys.server.batching = [] ∧
      (∀ b ∈ sys.server.sent, b.toMark = [] ∧ b.toSend = [] ∧ b.report = none) ∧
      ∀ name ∈ ["fork"], sys.server.perAppQueue name = [])) = true by decide +kernel)
  obtain ⟨hids, hsent, hinstances, hqueues, hbatching, hbatches, hanswers⟩ := of_decide_eq_true hp
  have hwhole : Machine.Along forkSystem.step Whole forkRest forkSystem.start := by decide +kernel
  obtain ⟨-, acts, hserver⟩ := talking_run hrun hwhole fork_client fork_fits
  have hrest : AtRest sys.server := by
    refine Replies.AtRest.of_names (Replies.inv_run hserver).1 (fun k hk => ?_) hqueues hbatching hbatches hanswers
    obtain ⟨hname, htable⟩ := hinstances k hk
    have hspec : k.spec = Replies.fork := by
      cases hks : k.spec
      rw [hks] at htable
      exact congrArg AppSpec.mk htable
    exact ⟨hname, fun id => hspec ▸ fork_names id⟩
  have hanswered := requests_answered hrun hwhole fork_client fork_fits (forkApp_spec ▸ Replies.fork_acyclic)
    (forkApp_spec ▸ Replies.fork_forest) (by decide) (by decide) hsent hrest
  exact ⟨sys, hrun, hids, hanswered.2.1 0 (by decide), hanswered.2.1 1 (by decide)⟩

end Glet.Clients
