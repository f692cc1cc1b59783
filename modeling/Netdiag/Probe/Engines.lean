import Mathlib.Data.List.Induction
import Netdiag.Probe.Packets

/-!
# Engines — arping and arprecon as readings of one machine

Behind the events and the duplicates, a probe module is an engine that takes replies, requests and
the time.  Arping and arprecon simulate it, each with its own reading of a frame: arping looks at
the low byte of the opcode only.  Their statistics agree over a run where the two readings do
(`engines_agree_iff`).
-/

namespace Netdiag
namespace Probe

open Lib

variable {X Y : Type}

/-! ## The engine -/

/-- A probe and what is counted of it. -/
structure Engine where
  role : Role
  sendTs : UInt64
  waiting : Bool
  replies : UInt32
  timeouts : UInt32
  sumLat : UInt32
  maxLat : UInt32
  minLat : UInt32
  countLat : UInt32

/-- What an engine takes. -/
inductive Input
  | reply (ts : UInt64)
  | request (ts : UInt64)
  | time (ts : UInt64)
  | reset
  | nothing

namespace Engine

def init (role : Role) (sendTs : UInt64) : Engine where
  role := role
  sendTs := sendTs
  waiting := false
  replies := 0
  timeouts := 0
  sumLat := 0
  maxLat := 0
  minLat := 0xFFFFFFFF
  countLat := 0

def latency (e : Engine) (ts : UInt64) : UInt32 :=
  if e.sendTs ≠ 0 ∧ ts ≠ 0 then
    if ts > e.sendTs then (ts - e.sendTs).toUInt32 else 0
  else 5

def step (e : Engine) : Input → Engine
  | .reply ts =>
      { e with
          replies := e.replies + 1
          sumLat := e.sumLat + e.latency ts
          countLat := e.countLat + 1
          maxLat := if e.latency ts > e.maxLat then e.latency ts else e.maxLat
          minLat := if e.latency ts < e.minLat then e.latency ts else e.minLat
          waiting := false }
  | .request ts => { e with sendTs := if ts ≠ 0 then ts else e.sendTs, waiting := true }
  | .time ts =>
      if e.waiting = true ∧ e.sendTs ≠ 0 ∧ ts > e.sendTs + 1000 then
        { e with timeouts := e.timeouts + 1, waiting := false }
      else e
  | .reset => init e.role e.sendTs
  | .nothing => e

def run (e : Engine) (inputs : List Input) : Engine :=
  inputs.foldl step e

/-- The statistics, without duplicates. -/
def report (e : Engine) : Stats where
  replies := e.replies
  timeouts := e.timeouts
  duplicates := 0
  lossPct := if e.replies + e.timeouts ≠ 0 then (e.timeouts * 100) / (e.replies + e.timeouts) else 0
  avgLatencyMs := if e.countLat ≠ 0 then e.sumLat / e.countLat else 0
  maxLatencyMs := e.maxLat
  minLatencyMs := if e.minLat = 0xFFFFFFFF then 0 else e.minLat

@[simp] theorem role_step (e : Engine) (input : Input) : (e.step input).role = e.role := by
  cases input with
  | time ts =>
      rw [step]
      split_ifs <;> rfl
  | reply ts => rfl
  | request ts => rfl
  | reset => rfl
  | nothing => rfl

theorem run_append (e : Engine) (inputs more : List Input) :
    e.run (inputs ++ more) = (e.run inputs).run more :=
  List.foldl_append

end Engine

/-! ## Modules that simulate it -/

/-- The engine of a context. -/
def Ctx.engine (c : Ctx X) : Engine where
  role := c.role
  sendTs := c.sendTs
  waiting := c.waiting
  replies := c.replies
  timeouts := c.timeouts
  sumLat := c.sumLat
  maxLat := c.maxLat
  minLat := c.minLat
  countLat := c.countLat

/-- From these calls the module returns, and does to the engine what it reads in them. -/
def Module.Simulates (m : Module X) (Fits : Call → Prop) (read : Role → Call → Input) :
    Prop :=
  ∀ c call, Fits call → ∃ c' r, m.step (some c) call = .ok (some c', r) ∧
    c'.engine = c.engine.step (read c.role call)

variable {m : Module X} {Fits : Call → Prop} {read : Role → Call → Input}

/-- The run lemma. -/
theorem Module.Simulates.play (h : m.Simulates Fits read) {calls : List Call}
    (hfits : ∀ call ∈ calls, Fits call) (c : Ctx X) :
    ∃ c', m.play (some c) calls = .ok (some c') ∧
      c'.engine = c.engine.run (calls.map (read c.role)) := by
  induction calls generalizing c with
  | nil => exact ⟨c, rfl, rfl⟩
  | cons call calls ih =>
      rcases h c call (hfits call List.mem_cons_self) with ⟨c₁, r, hfirst, hengine⟩
      rcases ih (fun call' hmem => hfits call' (List.mem_cons_of_mem _ hmem)) c₁ with
        ⟨c', hplay, hrest⟩
      -- A step keeps the role, so the other calls are read in the same way.
      have hrole : c₁.role = c.role := by
        calc
          c₁.role = c₁.engine.role := rfl
          _ = c.engine.role := by rw [hengine, Engine.role_step]
          _ = c.role := rfl
      refine ⟨c', ?_, ?_⟩
      · rw [Module.play, hfirst]
        exact hplay
      · rw [hrest, hrole, hengine]
        rfl

theorem engine_expire (c : Ctx X) (ev : Event) (ts : UInt64) :
    (if c.Expired ts then c.timeout ev else c).engine = c.engine.step (.time ts) := by
  have hsame : c.Expired ts ↔
      c.engine.waiting = true ∧ c.engine.sendTs ≠ 0 ∧ ts > c.engine.sendTs + 1000 := Iff.rfl
  rw [Engine.step]
  by_cases hexpired : c.Expired ts
  · rw [if_pos hexpired, if_pos (hsame.1 hexpired)]
    rfl
  · rw [if_neg hexpired, if_neg (hsame.not.1 hexpired)]

/-! ## Readings of ARP frames -/

/-- An Ethernet frame with an ARP packet. -/
def ArpFrame (d : List UInt8) : Prop :=
  42 ≤ d.length ∧ d.getD 12 0 = 0x08 ∧ d.getD 13 0 = 0x06

instance (d : List UInt8) : Decidable (ArpFrame d) :=
  inferInstanceAs (Decidable (_ ∧ _))

/-- The call feeds such a frame, tells the time or resets. -/
def ArpCall : Call → Prop
  | .feedInput (some d) => ArpFrame d
  | .feedInputWithTs (some d) _ => ArpFrame d
  | .process _ => True
  | .reset => True
  | _ => False

/-- What a frame is to an engine that sees this opcode in it. -/
def arpInput (opcode : List UInt8 → UInt16) (role : Role) (d : List UInt8) (ts : UInt64) : Input :=
  match role with
  | .requester => if opcode d = 2 then .reply ts else .nothing
  | .responder => if opcode d = 1 then .request ts else .nothing

theorem Engine.step_arpInput (e : Engine) (opcode : List UInt8 → UInt16) (role : Role)
    (d : List UInt8) (ts : UInt64) :
    e.step (arpInput opcode role d ts) =
      if opcode d = 2 ∧ role = .requester then e.step (.reply ts)
      else if opcode d = 1 ∧ role = .responder then e.step (.request ts)
      else e := by
  cases role with
  | requester =>
      have hrequest : ¬ (opcode d = 1 ∧ Role.requester = .responder) := fun h => by cases h.2
      rw [if_neg hrequest]
      show e.step (if opcode d = 2 then .reply ts else .nothing) = _
      by_cases htwo : opcode d = 2
      · rw [if_pos htwo, if_pos ⟨htwo, rfl⟩]
      · rw [if_neg htwo, if_neg fun h => htwo h.1]
        rfl
  | responder =>
      have hreply : ¬ (opcode d = 2 ∧ Role.responder = .requester) := fun h => by cases h.2
      rw [if_neg hreply]
      show e.step (if opcode d = 1 then .request ts else .nothing) = _
      by_cases hone : opcode d = 1
      · rw [if_pos hone, if_pos ⟨hone, rfl⟩]
      · rw [if_neg hone, if_neg fun h => hone h.1]
        rfl

def readArp (opcode : List UInt8 → UInt16) (role : Role) : Call → Input
  | .feedInput (some d) => arpInput opcode role d 0
  | .feedInputWithTs (some d) ts => arpInput opcode role d ts
  | .process ts => .time ts
  | .reset => .reset
  | _ => .nothing

/-- The rule for a module, from what it does with frames and with the time. -/
theorem simulates_of_parts {opcode : List UInt8 → UInt16} (hlen : m.minLen ≤ 42)
    (hbody : ∀ c d ts, ArpFrame d → ∃ c', m.body c d ts = .ok c' ∧
      c'.engine = c.engine.step (arpInput opcode c.role d ts))
    (htick : ∀ c ts, (m.tick c ts).engine = c.engine.step (.time ts)) :
    m.Simulates ArpCall (readArp opcode) := by
  have hfeeds : ∀ (c : Ctx X) {call : Call} {d : List UInt8} {ts : UInt64}, call.Feeds d ts →
      ArpFrame d → ∃ c' r, m.step (some c) call = .ok (some c', r) ∧
        c'.engine = c.engine.step (arpInput opcode c.role d ts) := by
    intro c call d ts hcall hframe
    rcases hbody c d ts hframe with ⟨c', hc', hengine⟩
    exact ⟨c', _, Module.step_of_body hcall (hlen.trans hframe.1) hc', hengine⟩
  intro c call hfits
  cases call with
  | feedInput d =>
      cases d with
      | none => exact hfits.elim
      | some d => exact hfeeds c (.inr ⟨rfl, rfl⟩) hfits
  | feedInputWithTs d ts =>
      cases d with
      | none => exact hfits.elim
      | some d => exact hfeeds c (.inl rfl) hfits
  | process ts => exact ⟨_, _, rfl, htick c ts⟩
  | nextEvent e => exact hfits.elim
  | getStats s => exact hfits.elim
  | reset => exact ⟨_, _, rfl, rfl⟩

end Probe

/-! ## The two modules -/

open Lib

namespace Arping

open Probe (Role Event Call Engine ArpFrame ArpCall arpInput readArp)

/-- The opcode that the module sees. -/
def opcode (d : List UInt8) : UInt16 :=
  (d.getD 21 0).toUInt16

theorem engine_fed (c : Ctx) {d : List UInt8} (hd : ArpFrame d) (ts : UInt64) :
    (fed c d ts).engine = c.engine.step (arpInput opcode c.role d ts) := by
  have hop : ∀ op : UInt8, IsArp op d ↔ opcode d = op.toUInt16 := by
    intro op
    have hlen : 21 < d.length := Nat.lt_of_lt_of_le (by decide) hd.1
    rw [opcode, UInt8.toUInt16_inj]
    exact ⟨fun h => h.2.2.2, fun h => ⟨hlen, hd.2.1, hd.2.2, h⟩⟩
  have hreply : IsArp 2 d ↔ opcode d = 2 := hop 2
  have hrequest : IsArp 1 d ↔ opcode d = 1 := hop 1
  have hndp : ∀ type, ¬ IsNdp type d := not_isNdp hd.2.1
  rw [Engine.step_arpInput]
  simp only [fed, hreply, hrequest, hndp, or_false, false_and, if_false]
  split_ifs <;> rfl

theorem simulates : arping.Simulates ArpCall (readArp opcode) := by
  refine Probe.simulates_of_parts (by decide) ?_ fun c ts => Probe.engine_expire c timeoutEvent ts
  intro c d ts hd
  have hin : InBounds c d := by
    have hlen : 28 ≤ d.length := Nat.le_trans (by decide) hd.1
    exact fun _ => ⟨fun _ => hlen, fun hndp => absurd hndp (not_isNdp hd.2.1 136)⟩
  exact ⟨_, feedBody_eq (Nat.le_trans (by decide) hd.1) hin ts, engine_fed c hd ts⟩

end Arping

namespace Arprecon

open Probe (Role Event Call Engine ArpFrame ArpCall arpInput readArp)

/-- The opcode that the module sees. -/
def opcode (d : List UInt8) : UInt16 :=
  be16At d 20

/-- The table of the neighbours is no part of the engine. -/
theorem engine_learnt (c : Ctx) (d : List UInt8) : (learnt c d).engine = c.engine := by
  rw [learnt]
  split_ifs with hroom
  · rw [Probe.Ctx.engine, role_spoofed]
    rfl
  · rfl

theorem engine_fed (c : Ctx) {d : List UInt8} (hd : ArpFrame d) (ts : UInt64) :
    (fed c d ts).engine = c.engine.step (arpInput opcode c.role d ts) := by
  have hlen : 21 < d.length := Nat.lt_of_lt_of_le (by decide) hd.1
  have hreply : IsReply d ↔ opcode d = 2 :=
    ⟨fun h => h.2.2.2, fun h => ⟨hlen, hd.2.1, hd.2.2, h⟩⟩
  have hrequest : IsRequest d ↔ opcode d = 1 :=
    ⟨fun h => h.2.2.2, fun h => ⟨hlen, hd.2.1, hd.2.2, h⟩⟩
  rw [Engine.step_arpInput]
  simp only [fed, hreply, hrequest]
  split_ifs
  · exact engine_learnt _ d
  · rfl
  · rfl

theorem simulates : arprecon.Simulates ArpCall (readArp opcode) := by
  refine Probe.simulates_of_parts (by decide) ?_ fun c ts => Probe.engine_expire c timeoutEvent ts
  intro c d ts hd
  have hlen : 28 ≤ d.length ∧ 32 ≤ d.length :=
    ⟨Nat.le_trans (by decide) hd.1, Nat.le_trans (by decide) hd.1⟩
  have hin : InBounds c d := fun _ _ => ⟨hlen.1, fun _ => hlen.2⟩
  exact ⟨_, feedBody_eq hin ts, engine_fed c hd ts⟩

end Arprecon

/-! ## Agreement -/

namespace Probe

variable {X Y : Type}

/-- The statistics without duplicates, which only one of the modules counts. -/
def Ctx.report (c : Ctx X) (lossPct : UInt32) : Stats :=
  { c.stats lossPct with duplicates := 0 }

/-- Both modules report the same replies, timeouts, loss and latencies after the calls. -/
def AgreeAfter (role : Role) (config config' : Option Config) (calls : List Call) : Prop :=
  ∃ a b, Arping.arping.play (some (Arping.createWithConfig role config)) calls = .ok (some a) ∧
    Arprecon.arprecon.play (some (Arprecon.createWithConfig role config')) calls = .ok (some b) ∧
    a.report (Arping.arping.lossPct a) = b.report (Arprecon.arprecon.lossPct b)

/-- What the frame of an ARP packet has in the low byte of its opcode if the role looks for it. -/
def wanted : Role → UInt8
  | .requester => 2
  | .responder => 1

/-- If the call feeds a frame with this low byte, its high byte is zero. -/
def Clean (role : Role) (call : Call) : Prop :=
  ∀ d ts, call.Feeds d ts → d.getD 21 0 = wanted role → d.getD 20 0 = 0

/-- The engine of the calls, as arping and as arprecon read them. -/
def arpingEngine (role : Role) (calls : List Call) : Engine :=
  (Engine.init role 0).run (calls.map (readArp Arping.opcode role))

def arpreconEngine (role : Role) (calls : List Call) : Engine :=
  (Engine.init role 0).run (calls.map (readArp Arprecon.opcode role))

theorem agreeAfter_iff (role : Role) (config config' : Option Config) {calls : List Call}
    (harp : ∀ call ∈ calls, ArpCall call) :
    AgreeAfter role config config' calls ↔
      (arpingEngine role calls).report = (arpreconEngine role calls).report := by
  rcases Arping.simulates.play harp (Arping.createWithConfig role config) with ⟨a, ha, hlow⟩
  rcases Arprecon.simulates.play harp (Arprecon.createWithConfig role config') with ⟨b, hb, hfull⟩
  have hreports : a.report (Arping.arping.lossPct a) = (arpingEngine role calls).report ∧
      b.report (Arprecon.arprecon.lossPct b) = (arpreconEngine role calls).report :=
    ⟨congrArg Engine.report hlow, congrArg Engine.report hfull⟩
  rw [← hreports.1, ← hreports.2]
  constructor
  · intro h
    rcases h with ⟨a', b', ha', hb', hsame⟩
    cases ha.symm.trans ha'
    cases hb.symm.trans hb'
    exact hsame
  · intro hsame
    exact ⟨a, b, ha, hb, hsame⟩

/-! ### Where the readings differ -/

theorem be16_eq_iff (hi lo : UInt8) (op : UInt8) :
    be16 hi lo = op.toUInt16 ↔ hi = 0 ∧ lo = op := by
  rw [← UInt16.toNat_inj, toNat_be16, UInt8.toNat_toUInt16, ← UInt8.toNat_inj, ← UInt8.toNat_inj,
    UInt8.toNat_zero]
  have hlo := lo.toNat_lt
  have hop := op.toNat_lt
  omega

/-- A frame that both engines read, and one that only the engine of the low byte does. -/
theorem opcode_eq_iff (op : UInt8) (d : List UInt8) :
    (Arping.opcode d = op.toUInt16 ↔ d.getD 21 0 = op) ∧
    (Arprecon.opcode d = op.toUInt16 ↔ d.getD 20 0 = 0 ∧ d.getD 21 0 = op) :=
  ⟨UInt8.toUInt16_inj, be16_eq_iff _ _ op⟩

theorem readArp_eq_of_clean {role : Role} {call : Call} (h : Clean role call) :
    readArp Arping.opcode role call = readArp Arprecon.opcode role call := by
  have hframe : ∀ d ts, call.Feeds d ts →
      arpInput Arping.opcode role d ts = arpInput Arprecon.opcode role d ts := by
    intro d ts hcall
    have hsame : ∀ op : UInt8, wanted role = op →
        (Arping.opcode d = op.toUInt16 ↔ Arprecon.opcode d = op.toUInt16) := by
      intro op hop
      rw [(opcode_eq_iff op d).1, (opcode_eq_iff op d).2]
      exact ⟨fun hlow => ⟨h d ts hcall (hlow.trans hop.symm), hlow⟩, fun hboth => hboth.2⟩
    cases role with
    | requester =>
        have htwo : Arping.opcode d = 2 ↔ Arprecon.opcode d = 2 := hsame 2 rfl
        simp only [arpInput, htwo]
    | responder =>
        have hone : Arping.opcode d = 1 ↔ Arprecon.opcode d = 1 := hsame 1 rfl
        simp only [arpInput, hone]
  cases call with
  | feedInput d =>
      cases d with
      | none => rfl
      | some d => exact hframe d 0 (.inr ⟨rfl, rfl⟩)
  | feedInputWithTs d ts =>
      cases d with
      | none => rfl
      | some d => exact hframe d ts (.inl rfl)
  | process ts => rfl
  | nextEvent e => rfl
  | getStats s => rfl
  | reset => rfl

theorem engine_eq_of_clean {role : Role} {calls : List Call} (h : ∀ call ∈ calls, Clean role call) :
    arpingEngine role calls = arpreconEngine role calls := by
  rw [arpingEngine, arpreconEngine,
    List.map_congr_left fun call hmem => readArp_eq_of_clean (h call hmem)]

/-- One call more. -/
theorem engine_concat (role : Role) (calls : List Call) (call : Call) :
    arpingEngine role (calls ++ [call]) =
      (arpingEngine role calls).step (readArp Arping.opcode role call) ∧
    arpreconEngine role (calls ++ [call]) =
      (arpreconEngine role calls).step (readArp Arprecon.opcode role call) := by
  rw [arpingEngine, arpreconEngine, List.map_append, List.map_append, Engine.run_append,
    Engine.run_append]
  exact ⟨rfl, rfl⟩

/-- A frame that only arping takes for a reply makes a difference at once. -/
theorem clean_of_report_eq {e : Engine} {call : Call}
    (h : (e.step (readArp Arping.opcode .requester call)).report =
      (e.step (readArp Arprecon.opcode .requester call)).report) : Clean .requester call := by
  intro d ts hcall htwo
  by_contra hhigh
  have hlow : Arping.opcode d = 2 := (opcode_eq_iff 2 d).1.2 htwo
  have hfull : ¬ Arprecon.opcode d = 2 := fun hop => hhigh ((opcode_eq_iff 2 d).2.1 hop).1
  have hreads : readArp Arping.opcode .requester call = .reply ts ∧
      readArp Arprecon.opcode .requester call = .nothing := by
    rcases hcall with rfl | ⟨rfl, rfl⟩ <;> exact ⟨if_pos hlow, if_neg hfull⟩
  rw [hreads.1, hreads.2] at h
  -- One of the engines counts a reply and the other one does not.
  have hreplies : e.replies + 1 = e.replies := congrArg Stats.replies h
  have hnat := congrArg UInt32.toNat hreplies
  rw [UInt32.toNat_add, UInt32.toNat_one] at hnat
  have hlt := e.replies.toNat_lt
  omega

/-- Requesters that agree all along have been fed clean frames only. -/
theorem clean_of_agree {calls : List Call}
    (h : ∀ before, before <+: calls →
      (arpingEngine .requester before).report = (arpreconEngine .requester before).report) :
    ∀ call ∈ calls, Clean .requester call := by
  induction calls using List.reverseRecOn with
  | nil =>
      intro call hmem
      cases hmem
  | append_singleton calls call ih =>
      -- Up to the last call the engines are equal, so the last one makes any difference.
      have hbefore := ih fun before hinit =>
        h before (hinit.trans (List.prefix_append calls [call]))
      have hlast := h (calls ++ [call]) List.prefix_rfl
      rw [(engine_concat _ calls call).1, (engine_concat _ calls call).2,
        engine_eq_of_clean hbefore] at hlast
      intro call' hmem
      rcases List.mem_append.1 hmem with hold | hnew
      · exact hbefore call' hold
      · rw [List.mem_singleton.1 hnew]
        exact clean_of_report_eq hlast

/-- In a run whose frames with the low byte of the opcode that the role looks for have a zero in
front of it, the modules agree in every state, and requesters agree in no other run. -/
theorem engines_agree_iff (role : Role) (config config' : Option Config) {calls : List Call}
    (harp : ∀ call ∈ calls, ArpCall call) :
    ((∀ call ∈ calls, Clean role call) →
      ∀ before, before <+: calls → AgreeAfter role config config' before) ∧
    (role = .requester → (∀ before, before <+: calls → AgreeAfter role config config' before) →
      ∀ call ∈ calls, Clean role call) := by
  have hiff : ∀ before, before <+: calls → (AgreeAfter role config config' before ↔
      (arpingEngine role before).report = (arpreconEngine role before).report) :=
    fun before hinit =>
      agreeAfter_iff role config config' fun call hmem => harp call (hinit.subset hmem)
  constructor
  · intro hclean before hinit
    rw [hiff before hinit, engine_eq_of_clean fun call hmem => hclean call (hinit.subset hmem)]
  · intro hrole hagree
    subst hrole
    exact clean_of_agree fun before hinit => (hiff before hinit).1 (hagree before hinit)

/-- The frame of an ARP packet with this opcode, and zeros for addresses. -/
def arpFrame (hi lo : UInt8) : List UInt8 :=
  List.replicate 12 0 ++ [0x08, 0x06, 0, 1, 0x08, 0, 6, 4, hi, lo] ++ List.replicate 20 0

theorem engines_agree_once :
    AgreeAfter .responder none (some ⟨3⟩)
      [.feedInputWithTs (some (arpFrame 0 1)) 5, .process 1006] := by
  refine (engines_agree_iff .responder none (some ⟨3⟩) ?_).1 ?_ _ List.prefix_rfl
  · simp only [List.forall_mem_cons]
    exact ⟨(by decide : ArpFrame (arpFrame 0 1)), trivial, fun call hmem => by cases hmem⟩
  · intro call hmem d ts hcall _
    rcases List.mem_cons.1 hmem with rfl | hrest
    · rcases hcall with hfed | ⟨hfed, _⟩ <;> cases hfed
      rfl
    · obtain rfl := List.mem_singleton.1 hrest
      rcases hcall with hfed | ⟨hfed, _⟩ <;> cases hfed

/-- Opcode 258 is a reply to arping. -/
theorem engines_differ :
    ArpFrame (arpFrame 1 2) ∧
    ¬ AgreeAfter .requester none none [.feedInput (some (arpFrame 1 2))] := by
  have hframe : ArpFrame (arpFrame 1 2) := by decide
  refine ⟨hframe, ?_⟩
  rw [agreeAfter_iff .requester none none fun call hmem => by
    rw [List.mem_singleton.1 hmem]
    exact hframe]
  intro hsame
  have hreplies := congrArg Stats.replies hsame
  exact absurd hreplies (by decide)

end Probe
end Netdiag
