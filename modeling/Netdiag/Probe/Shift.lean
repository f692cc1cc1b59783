import Netdiag.Probe.Bwdiag
import Netdiag.Probe.Reset

/-!
# Shift — the same run at another time

The library has no clock: callers pass the time with each call, in milliseconds since whenever they
like, and 0 for no time.  If every time that is passed in a run is moved by the same amount, no
call returns anything else, as long as the moved times and the delay of a timeout do not wrap
(`runs_shift`).
-/

namespace Netdiag
namespace Probe

open Lib

variable {X : Type}

/-! ## Moved times -/

/-- The time, moved by `k`; no time stays no time. -/
def shiftTime (k ts : UInt64) : UInt64 :=
  if ts ≠ 0 then ts + k else 0

/-- The moved time can be compared with another one that is a second late. -/
def Early (k ts : UInt64) : Prop :=
  ts.toNat + k.toNat + 1000 < 2 ^ 64

instance (k ts : UInt64) : Decidable (Early k ts) :=
  inferInstanceAs (Decidable (_ < _))

def Call.shift (k : UInt64) : Call → Call
  | .feedInputWithTs d ts => .feedInputWithTs d (shiftTime k ts)
  | .process ts => .process (shiftTime k ts)
  | call => call

/-- The times of the call are early. -/
def Call.Early (k : UInt64) : Call → Prop
  | .feedInputWithTs _ ts => Probe.Early k ts
  | .process ts => Probe.Early k ts
  | _ => True

@[simp] theorem shiftTime_zero (k : UInt64) : shiftTime k 0 = 0 := rfl

section Times

variable {k s ts : UInt64}

theorem Early.of_le (h : Early k ts) (hle : s.toNat ≤ ts.toNat) : Early k s := by
  rw [Early] at h ⊢
  omega

theorem toNat_shiftTime (h : Early k ts) (hts : ts ≠ 0) :
    (shiftTime k ts).toNat = ts.toNat + k.toNat := by
  rw [Early] at h
  rw [shiftTime, if_pos hts, UInt64.toNat_add, Nat.mod_eq_of_lt (by omega)]

theorem toNat_ne_zero (hts : ts ≠ 0) : ts.toNat ≠ 0 :=
  fun h => hts (UInt64.toNat_inj.1 h)

theorem shiftTime_ne_zero_iff (h : Early k ts) : shiftTime k ts ≠ 0 ↔ ts ≠ 0 := by
  by_cases hts : ts = 0
  · rw [hts, shiftTime_zero]
  · refine iff_of_true (fun hzero => ?_) hts
    have hsum := toNat_shiftTime h hts
    have hpos := toNat_ne_zero hts
    rw [hzero] at hsum
    have h0 : (0 : UInt64).toNat = 0 := rfl
    omega

theorem shiftTime_lt_iff (hs : Early k s) (h : Early k ts) (hs0 : s ≠ 0) (hts : ts ≠ 0) :
    shiftTime k s < shiftTime k ts ↔ s < ts := by
  rw [UInt64.lt_iff_toNat_lt, UInt64.lt_iff_toNat_lt, toNat_shiftTime hs hs0,
    toNat_shiftTime h hts, Nat.add_lt_add_iff_right]

theorem shiftTime_sub (hs : Early k s) (h : Early k ts) (hs0 : s ≠ 0) (hlt : s < ts) :
    shiftTime k ts - shiftTime k s = ts - s := by
  have hts : ts ≠ 0 := by
    rintro rfl
    exact absurd hlt UInt64.not_lt_zero
  have hle := (shiftTime_lt_iff hs h hs0 hts).2 hlt
  apply UInt64.toNat_inj.1
  rw [UInt64.toNat_sub_of_le _ _ (UInt64.le_of_lt hle),
    UInt64.toNat_sub_of_le _ _ (UInt64.le_of_lt hlt), toNat_shiftTime hs hs0,
    toNat_shiftTime h hts]
  omega

/-- A time that is kept where none is given. -/
theorem shiftTime_ite (h : Early k ts) :
    (if shiftTime k ts ≠ 0 then shiftTime k ts else shiftTime k s) =
      shiftTime k (if ts ≠ 0 then ts else s) := by
  by_cases hts : ts ≠ 0
  · rw [if_pos hts, if_pos ((shiftTime_ne_zero_iff h).2 hts)]
  · rw [if_neg hts, if_neg ((shiftTime_ne_zero_iff h).not.2 hts)]

theorem early_ite (hs : Early k s) (h : Early k ts) : Early k (if ts ≠ 0 then ts else s) := by
  split_ifs
  · exact h
  · exact hs

/-- The time is up at a moved time exactly if it was at the time itself. -/
theorem late_iff (hs : Early k s) (h : Early k ts) (hs0 : s ≠ 0) :
    shiftTime k ts > shiftTime k s + 1000 ↔ ts > s + 1000 := by
  have hmoved := toNat_shiftTime hs hs0
  have hdelay : (1000 : UInt64).toNat = 1000 := rfl
  rw [Early] at hs
  rw [gt_iff_lt, gt_iff_lt, UInt64.lt_iff_toNat_lt, UInt64.lt_iff_toNat_lt, UInt64.toNat_add,
    UInt64.toNat_add, hmoved, hdelay, Nat.mod_eq_of_lt (by omega), Nat.mod_eq_of_lt (by omega)]
  by_cases hts : ts = 0
  · -- No time is later than any.
    rw [hts, shiftTime_zero]
    have h0 : (0 : UInt64).toNat = 0 := rfl
    omega
  · rw [toNat_shiftTime h hts]
    omega

end Times

/-! ## Moved contexts -/

def Ctx.shift (k : UInt64) (c : Ctx X) : Ctx X :=
  { c with sendTs := shiftTime k c.sendTs }

/-- The second context is the first one, moved. -/
def Moved (k : UInt64) (a b : Ctx X) : Prop :=
  b = a.shift k ∧ Early k a.sendTs

section Contexts

variable {k ts : UInt64} {c : Ctx X}

theorem Ctx.latency_shift (hc : Early k c.sendTs) (h : Early k ts) :
    (c.shift k).latency (shiftTime k ts) = c.latency ts := by
  have hboth : (shiftTime k c.sendTs ≠ 0 ∧ shiftTime k ts ≠ 0) ↔ (c.sendTs ≠ 0 ∧ ts ≠ 0) :=
    and_congr (shiftTime_ne_zero_iff hc) (shiftTime_ne_zero_iff h)
  show (if shiftTime k c.sendTs ≠ 0 ∧ shiftTime k ts ≠ 0 then
    if shiftTime k ts > shiftTime k c.sendTs then
      (shiftTime k ts - shiftTime k c.sendTs).toUInt32 else 0 else 5) = _
  rw [Ctx.latency]
  by_cases htimes : c.sendTs ≠ 0 ∧ ts ≠ 0
  · rw [if_pos htimes, if_pos (hboth.2 htimes)]
    have hlater := shiftTime_lt_iff hc h htimes.1 htimes.2
    by_cases hlt : c.sendTs < ts
    · rw [if_pos hlt, if_pos (hlater.2 hlt), shiftTime_sub hc h htimes.1 hlt]
    · rw [if_neg hlt, if_neg (hlater.not.2 hlt)]
  · rw [if_neg htimes, if_neg (hboth.not.2 htimes)]

theorem Ctx.stamp_shift (c : Ctx X) (h : Early k ts) :
    (c.shift k).stamp (shiftTime k ts) = (c.stamp ts).shift k := by
  rw [Ctx.stamp, Ctx.shift, shiftTime_ite h]
  rfl

theorem Ctx.expired_shift (hc : Early k c.sendTs) (h : Early k ts) :
    (c.shift k).Expired (shiftTime k ts) ↔ c.Expired ts := by
  refine and_congr_right fun _ => ?_
  show (shiftTime k c.sendTs ≠ 0 ∧ shiftTime k ts > shiftTime k c.sendTs + 1000) ↔ _
  rw [shiftTime_ne_zero_iff hc]
  exact and_congr_right fun hne => late_iff hc h hne

theorem Moved.refl (hc : Early k c.sendTs) : Moved k c (c.shift k) :=
  ⟨rfl, hc⟩

theorem Moved.stamp (hc : Early k c.sendTs) (h : Early k ts) :
    Moved k (c.stamp ts) ((c.shift k).stamp (shiftTime k ts)) :=
  ⟨c.stamp_shift h, early_ite hc h⟩

theorem Moved.request (hc : Early k c.sendTs) (h : Early k ts) (own : X) :
    Moved k { c.request ts with own := own }
      { (c.shift k).request (shiftTime k ts) with own := own } := by
  refine ⟨?_, early_ite hc h⟩
  rw [Ctx.request, c.stamp_shift h]
  rfl

theorem Moved.reply (hc : Early k c.sendTs) (h : Early k ts) (ev : Event) (own : X) :
    Moved k { c.reply ev ts with own := own }
      { (c.shift k).reply ev (shiftTime k ts) with own := own } := by
  refine ⟨?_, hc⟩
  rw [Ctx.reply, Ctx.latency_shift hc h]
  rfl

theorem Moved.timeout (hc : Early k c.sendTs) (ev : Event) (own : X) :
    Moved k { c.timeout ev with own := own } { (c.shift k).timeout ev with own := own } :=
  ⟨rfl, hc⟩

/-- The rule for `*_process` of the modules with timers. -/
theorem Moved.expire (hc : Early k c.sendTs) (h : Early k ts) (ev : Event) (own : X) :
    Moved k (if c.Expired ts then { c.timeout ev with own := own } else c)
      (if (c.shift k).Expired (shiftTime k ts) then
        { (c.shift k).timeout ev with own := own } else c.shift k) := by
  have hexpired := Ctx.expired_shift hc h
  by_cases hup : c.Expired ts
  · rw [if_pos hup, if_pos (hexpired.2 hup)]
    exact .timeout hc ev own
  · rw [if_neg hup, if_neg (hexpired.not.2 hup)]
    exact .refl hc

end Contexts

/-! ## Moved runs -/

/-- The module takes a moved context to a moved one. -/
structure Module.Shifts (m : Module X) : Prop where
  body : ∀ {k ts : UInt64} {c : Ctx X} (d : List UInt8), m.minLen ≤ d.length →
    Early k c.sendTs → Early k ts →
      RelOk (Moved k) (m.body c d ts) (m.body (c.shift k) d (shiftTime k ts))
  tick : ∀ {k ts : UInt64} {c : Ctx X}, Early k c.sendTs → Early k ts →
    Moved k (m.tick c ts) (m.tick (c.shift k) (shiftTime k ts))
  lossPct : ∀ (k : UInt64) (c : Ctx X), m.lossPct (c.shift k) = m.lossPct c

/-- The same for the pointers that callers hold. -/
inductive MovedPtr (k : UInt64) : Option (Ctx X) → Option (Ctx X) → Prop
  | null : MovedPtr k none none
  | ctx {a b : Ctx X} : Moved k a b → MovedPtr k (some a) (some b)

namespace Module.Shifts

variable {m : Module X} {k : UInt64}

theorem feed (h : m.Shifts) {a b : Ctx X} (hab : Moved k a b) (d : List UInt8) {ts : UInt64}
    (hts : Early k ts) :
    RelOk (fun x y => MovedPtr k x.2 y.2 ∧ x.1 = y.1) (m.feedInputWithTs (some a) (some d) ts)
      (m.feedInputWithTs (some b) (some d) (shiftTime k ts)) := by
  by_cases hlen : d.length < m.minLen
  · rw [feedInputWithTs_of_short hlen, feedInputWithTs_of_short hlen]
    exact .ok ⟨.ctx hab, rfl⟩
  · have hle := Nat.le_of_not_lt hlen
    rw [feedInputWithTs_of_le hle, feedInputWithTs_of_le hle]
    rcases hab with ⟨rfl, ha⟩
    exact RelOk.bind (h.body d hle ha hts) fun a' b' hab' => .ok ⟨.ctx hab', rfl⟩

/-- The step lemma. -/
theorem step (h : m.Shifts) {p q : Option (Ctx X)} (hpq : MovedPtr k p q) {call : Call}
    (hearly : call.Early k) :
    RelOk (fun x y => MovedPtr k x.1 y.1 ∧ x.2 = y.2) (m.step p call)
      (m.step q (call.shift k)) := by
  cases hpq with
  | null => cases call <;> exact .ok ⟨.null, rfl⟩
  | @ctx a b hab =>
      cases call with
      | feedInput d =>
          cases d with
          | none => exact .ok ⟨.ctx hab, rfl⟩
          | some d =>
              -- A packet without a time has the time zero, which does not move.
              exact RelOk.bind (h.feed hab d (hab.2.of_le (Nat.zero_le _))) fun _ _ hxy =>
                .ok ⟨hxy.1, congrArg Result.code hxy.2⟩
      | feedInputWithTs d ts =>
          cases d with
          | none => exact .ok ⟨.ctx hab, rfl⟩
          | some d =>
              exact RelOk.bind (h.feed hab d hearly) fun _ _ hxy =>
                .ok ⟨hxy.1, congrArg Result.code hxy.2⟩
      | process ts =>
          -- Times are only compared with that of the request, which has moved as far.
          rcases hab with ⟨rfl, ha⟩
          exact .ok ⟨.ctx (h.tick ha hearly), rfl⟩
      | nextEvent e =>
          rcases hab with ⟨rfl, ha⟩
          cases e with
          | none => exact .ok ⟨.ctx (.refl ha), rfl⟩
          | some e =>
              -- The queue does not hold times.
              rcases hpop : a.pop e with ⟨r, queue, e'⟩
              show RelOk _ (m.step (some a) (.nextEvent (some e)))
                (m.step (some (a.shift k)) (.nextEvent (some e)))
              rw [Module.step, Module.step, Ctx.nextEvent_of_pop hpop,
                Ctx.nextEvent_of_pop (c := a.shift k) hpop]
              exact .ok ⟨.ctx ⟨rfl, ha⟩, rfl⟩
      | getStats s =>
          rcases hab with ⟨rfl, ha⟩
          refine .ok ⟨.ctx (.refl ha), ?_⟩
          cases s with
          | none => rfl
          | some s =>
              dsimp only [Module.getStats]
              rw [h.lossPct]
              rfl
      | reset =>
          rcases hab with ⟨rfl, ha⟩
          exact .ok ⟨.ctx ⟨rfl, ha⟩, rfl⟩

/-- The run lemma: what callers see of a run from a new context does not change with its times. -/
theorem observe_eq (h : m.Shifts) (role : Role) (config : Option Config) {calls : List Call}
    (hk : Early k 0) (hearly : ∀ call ∈ calls, call.Early k) :
    observe m.step (some (m.createWithConfig role config)) calls =
      observe m.step (some (m.createWithConfig role config)) (calls.map (Call.shift k)) :=
  observe_eq_observe_map (R := MovedPtr k) (f := Call.shift k)
    (fun call hmem _ _ hpq => h.step hpq (hearly call hmem)) (.ctx ⟨rfl, hk⟩)

end Module.Shifts
end Probe

open Lib
open Probe (Role Config Event Call Result Early Moved Module shiftTime)
open Ping (ping)
open Arping (arping)
open Traceroute (traceroute)
open Dnsdiag (dnsdiag)
open Arprecon (arprecon)

/-! ## The modules -/

namespace Ping

theorem shifts : ping.Shifts where
  body := by
    intro k ts c d _ hc hts
    have hrole : (c.shift k).role = c.role := rfl
    refine RelOk.bind_same _ fun type => ?_
    simp only [hrole]
    split_ifs
    · exact RelOk.bind_same _ fun seq => .ok (.reply hc hts _ c.own)
    · exact RelOk.bind_same _ fun seq => .ok (.request hc hts _)
    · exact .ok (.refl hc)
  tick := fun hc hts => .expire hc hts _ _
  lossPct := fun _ _ => rfl

end Ping

namespace Dnsdiag

theorem shifts : dnsdiag.Shifts where
  body := by
    intro k ts c d _ hc hts
    show RelOk _ (feedBody c d ts) (feedBody (c.shift k) d (shiftTime k ts))
    have hstamp : Early k (c.stamp ts).sendTs := Probe.early_ite hc hts
    have hrole : ((c.stamp ts).shift k).role = (c.stamp ts).role := rfl
    rw [feedBody, feedBody, c.stamp_shift hts]
    refine RelOk.bind_same _ fun flags => ?_
    simp only [hrole]
    split_ifs
    · exact .ok (.timeout hstamp _ c.own)
    · exact .ok (.reply hstamp hts _ c.own)
    · exact RelOk.bind_same _ fun id => .ok (.request hstamp hts _)
    · exact .ok (.refl hstamp)
  tick := fun hc _ => .refl hc
  lossPct := fun _ _ => rfl

end Dnsdiag

namespace Traceroute

theorem shifts : traceroute.Shifts where
  body := by
    intro k ts c d _ hc hts
    show RelOk _ (feedBody c d ts) (feedBody (c.shift k) d (shiftTime k ts))
    have hstamp : Early k (c.stamp ts).sendTs := Probe.early_ite hc hts
    have hrole : ((c.stamp ts).shift k).role = (c.stamp ts).role := rfl
    rw [feedBody, feedBody, c.stamp_shift hts]
    refine RelOk.bind_same _ fun icmpType => ?_
    simp only [hrole, Probe.Ctx.latency_shift hstamp hts]
    split_ifs
    · exact .ok (.reply hstamp hts _ _)
    · exact RelOk.bind_same _ fun seq => .ok (.request hstamp hts _)
    · exact .ok (.refl hstamp)
  tick := fun hc hts => .expire hc hts _ _
  lossPct := fun _ _ => rfl

end Traceroute

namespace Arping

theorem arpPart_shift {k ts : UInt64} {c : Ctx} (d : List UInt8) (hc : Early k c.sendTs)
    (hts : Early k ts) :
    RelOk (Moved k) (arpPart c d ts) (arpPart (c.shift k) d (shiftTime k ts)) := by
  have hrole : (c.shift k).role = c.role := rfl
  rw [arpPart, arpPart]
  by_cases hlen : d.length > 21
  · simp only [if_pos hlen]
    refine RelOk.bind_same _ fun t₀ => RelOk.bind_same _ fun t₁ => RelOk.bind_same _ fun op => ?_
    simp only [hrole]
    split_ifs
    · exact RelOk.bind_same _ fun mac => .ok (.reply hc hts _ ())
    · exact .ok (.request hc hts ())
    · exact .ok (.refl hc)
  · simp only [if_neg hlen]
    exact .ok (.refl hc)

theorem ndpPart_shift {k ts : UInt64} {c : Ctx} (d : List UInt8) (hc : Early k c.sendTs)
    (hts : Early k ts) :
    RelOk (Moved k) (ndpPart c d ts) (ndpPart (c.shift k) d (shiftTime k ts)) := by
  have hrole : (c.shift k).role = c.role := rfl
  rw [ndpPart, ndpPart]
  by_cases hlen : d.length > 40
  · simp only [if_pos hlen]
    refine RelOk.bind_same _ fun t₀ => RelOk.bind_same _ fun t₁ => ?_
    by_cases htype : t₀ = 0x86 ∧ t₁ = 0xdd
    · simp only [if_pos htype]
      refine RelOk.bind_same _ fun icmp6Type => ?_
      simp only [hrole]
      -- Both sides take the same branch: the role and the bytes do not depend on times.
      split_ifs
      · exact RelOk.bind_same _ fun mac => .ok (.reply hc hts _ ())
      · exact RelOk.bind_same _ fun mac => .ok (.reply hc hts _ ())
      · exact .ok (.request hc hts ())
      · exact .ok (.refl hc)
    · simp only [if_neg htype]
      exact .ok (.refl hc)
  · simp only [if_neg hlen]
    exact .ok (.refl hc)

theorem shifts : arping.Shifts where
  body := by
    intro k ts c d _ hc hts
    refine RelOk.bind (arpPart_shift d hc hts) ?_
    rintro a b ⟨rfl, ha⟩
    exact ndpPart_shift d ha hts
  tick := fun hc hts => .expire hc hts _ _
  lossPct := fun _ _ => rfl

end Arping

namespace Arprecon

theorem spoofStep_shift (k : UInt64) (ip : UInt32) (mac : Vector UInt8 6) (c : Ctx)
    (i : Fin maxNeigh) :
    spoofStep ip mac (c.shift k) i = (spoofStep ip mac c i).shift k := by
  have hsame : (c.shift k).own.Conflicts i ip mac ↔ c.own.Conflicts i ip mac := Iff.rfl
  rw [spoofStep, spoofStep]
  by_cases hconflict : c.own.Conflicts i ip mac
  · rw [if_pos hconflict, if_pos (hsame.2 hconflict)]
    rfl
  · rw [if_neg hconflict, if_neg (hsame.not.2 hconflict)]

theorem foldl_spoofStep_shift (k : UInt64) (ip : UInt32) (mac : Vector UInt8 6)
    (slots : List (Fin maxNeigh)) (c : Ctx) :
    slots.foldl (spoofStep ip mac) (c.shift k) = (slots.foldl (spoofStep ip mac) c).shift k :=
  List.foldl_hom (Probe.Ctx.shift k) (spoofStep_shift k ip mac)

/-- Learning a neighbour neither looks at the time of the last probe nor changes it. -/
theorem learn_shift {k : UInt64} {c : Ctx} (d : List UInt8) (hc : Early k c.sendTs) :
    RelOk (Moved k) (learn c d) (learn (c.shift k) d) := by
  rw [learn, learn]
  by_cases hroom : c.own.neighCount < maxNeigh
  · have hroom' : (c.shift k).own.neighCount < maxNeigh := hroom
    rw [dif_pos hroom, dif_pos hroom']
    refine RelOk.bind_same _ fun mac => RelOk.bind_same _ fun ip => .ok ⟨?_, ?_⟩
    · exact foldl_spoofStep_shift k ip mac _ { c with own := c.own.add mac ip hroom }
    · rw [(foldl_spoofStep_keeps ip mac _ _).2]
      exact hc
  · have hfull : ¬ (c.shift k).own.neighCount < maxNeigh := hroom
    rw [dif_neg hroom, dif_neg hfull]
    exact .ok (.refl hc)

theorem shifts : arprecon.Shifts where
  body := by
    intro k ts c d _ hc hts
    have hrole : (c.shift k).role = c.role := rfl
    show RelOk _ (feedBody c d ts) (feedBody (c.shift k) d (shiftTime k ts))
    rw [feedBody, feedBody, arpBody, arpBody]
    by_cases hlen : d.length > 21
    · simp only [if_pos hlen]
      refine RelOk.bind_same _ fun t₀ => RelOk.bind_same _ fun t₁ => ?_
      by_cases htype : t₀ = 0x08 ∧ t₁ = 0x06
      · simp only [if_pos htype]
        refine RelOk.bind_same _ fun op => ?_
        simp only [hrole]
        split_ifs
        · refine RelOk.bind_same _ fun mac => ?_
          -- The table learns in a context that has moved with the reply.
          have hreply : Moved k (c.reply { type := .arpReply, srcMac := mac } ts) _ :=
            .reply hc hts _ c.own
          rcases hreply with ⟨hmoved, hearly⟩
          rw [show (c.shift k).reply { type := .arpReply, srcMac := mac } (shiftTime k ts) = _
            from hmoved]
          exact learn_shift d hearly
        · exact .ok (.request hc hts c.own)
        · exact .ok (.refl hc)
      · simp only [if_neg htype]
        exact .ok (.refl hc)
    · simp only [if_neg hlen]
      exact .ok (.refl hc)
  tick := fun hc hts => .expire hc hts _ _
  lossPct := fun _ _ => rfl

end Arprecon

namespace Bwdiag

def Ctx.shift (k : UInt64) (c : Ctx) : Ctx :=
  { c with lastTs := shiftTime k c.lastTs }

/-- The second context is the first one, moved. -/
def Moved (k : UInt64) (p q : Option Ctx) : Prop :=
  q = p.map (Ctx.shift k) ∧ ∀ c ∈ p, Early k c.lastTs

variable {k ts : UInt64} {c : Ctx}

theorem Moved.ctx (h : Early k c.lastTs) : Moved k (some c) (some (c.shift k)) :=
  ⟨rfl, fun _ hc => Option.mem_some.1 hc ▸ h⟩

theorem gap_shift (hc : Early k c.lastTs) (hts : Early k ts) (hlast : c.lastTs ≠ 0)
    (hts0 : ts ≠ 0) : (c.shift k).gap (shiftTime k ts) = c.gap ts := by
  show (if shiftTime k ts > shiftTime k c.lastTs then
    (shiftTime k ts - shiftTime k c.lastTs).toUInt32 else 1) = _
  have hlater := Probe.shiftTime_lt_iff hc hts hlast hts0
  rw [Ctx.gap]
  by_cases hlt : c.lastTs < ts
  · rw [if_pos hlt, if_pos (hlater.2 hlt), Probe.shiftTime_sub hc hts hlast hlt]
  · rw [if_neg hlt, if_neg (hlater.not.2 hlt)]

theorem Moved.stamp (hc : Early k c.lastTs) (hts : Early k ts) :
    Moved k (some { c with lastTs := if ts ≠ 0 then ts else c.lastTs })
      (some { c.shift k with
        lastTs := if shiftTime k ts ≠ 0 then shiftTime k ts else shiftTime k c.lastTs }) := by
  rw [Probe.shiftTime_ite hts]
  exact .ctx (c := { c with lastTs := if ts ≠ 0 then ts else c.lastTs }) (Probe.early_ite hc hts)

theorem feed_shift (p : Platform) (d : List UInt8) (hc : Early k c.lastTs) (hts : Early k ts) :
    RelOk (fun x y => Moved k x.2 y.2 ∧ x.1 = y.1) (feedInputWithTs p (some c) (some d) ts)
      (feedInputWithTs p (some (c.shift k)) (some d) (shiftTime k ts)) := by
  have hboth : (shiftTime k ts ≠ 0 ∧ (c.shift k).lastTs ≠ 0) ↔ (ts ≠ 0 ∧ c.lastTs ≠ 0) :=
    and_congr (Probe.shiftTime_ne_zero_iff hts) (Probe.shiftTime_ne_zero_iff hc)
  rw [feedInputWithTs, feedInputWithTs]
  by_cases hempty : d.length = 0
  · rw [if_pos hempty, if_pos hempty]
    exact .ok ⟨.ctx hc, rfl⟩
  · rw [if_neg hempty, if_neg hempty]
    by_cases hfollows : ts ≠ 0 ∧ c.lastTs ≠ 0
    · rw [if_pos hfollows, if_pos (hboth.2 hfollows), sample, sample,
        gap_shift hc hts hfollows.2 hfollows.1]
      -- Both divide by the same time, and stop there or make the same sample.
      cases div (d.length * 1000 % p.sizeMod) (c.gap ts) with
      | error e => exact .error e
      | ok bps =>
          let sampled : Ctx :=
            { c.qpush { type := .bwSample, seq := c.bytes, latencyMs := UInt32.ofNat bps } with
                replies := c.replies + 1
                bytes := c.bytes + UInt32.ofNat d.length }
          exact .ok ⟨.stamp (c := sampled) hc hts, rfl⟩
    · rw [if_neg hfollows, if_neg (hboth.not.2 hfollows)]
      exact .ok ⟨.stamp hc hts, rfl⟩

/-- The step lemma. -/
theorem step_shift (p : Platform) {a b : Option Ctx} (hab : Moved k a b) {call : Call}
    (hearly : call.Early k) :
    RelOk (fun x y => Moved k x.1 y.1 ∧ x.2 = y.2) (step p a call) (step p b (call.shift k)) := by
  rcases hab with ⟨rfl, ha⟩
  cases a with
  | none => cases call <;> exact .ok ⟨⟨rfl, ha⟩, rfl⟩
  | some c =>
      have hc : Early k c.lastTs := ha c rfl
      cases call with
      | feedInput d =>
          cases d with
          | none => exact .ok ⟨.ctx hc, rfl⟩
          | some d =>
              exact RelOk.bind (feed_shift p d hc (hc.of_le (Nat.zero_le _))) fun _ _ hxy =>
                .ok ⟨hxy.1, congrArg Result.code hxy.2⟩
      | feedInputWithTs d ts =>
          cases d with
          | none => exact .ok ⟨.ctx hc, rfl⟩
          | some d =>
              exact RelOk.bind (feed_shift p d hc hearly) fun _ _ hxy =>
                .ok ⟨hxy.1, congrArg Result.code hxy.2⟩
      | process ts => exact .ok ⟨.ctx hc, rfl⟩
      | nextEvent e =>
          cases e with
          | none => exact .ok ⟨.ctx hc, rfl⟩
          | some e => exact .ok ⟨.ctx (c := { c with toQueueCtx := (c.pop e).2.1 }) hc, rfl⟩
      | getStats s =>
          cases s with
          | none => exact .ok ⟨.ctx hc, rfl⟩
          | some s => exact .ok ⟨.ctx hc, rfl⟩
      | reset => exact .ok ⟨.ctx (c := qinit c.role c.ring.1 c.qsz) (hc.of_le (Nat.zero_le _)), rfl⟩

theorem observe_shift (p : Platform) (role : Role) (config : Option Config) {calls : List Call}
    (hk : Early k 0) (hearly : ∀ call ∈ calls, call.Early k) :
    observe (step p) (some (createWithConfig role config)) calls =
      observe (step p) (some (createWithConfig role config)) (calls.map (Call.shift k)) :=
  observe_eq_observe_map (R := Moved k) (f := Call.shift k)
    (fun call hmem _ _ hab => step_shift p hab (hearly call hmem)) (.ctx hk)

end Bwdiag

/-- Callers who pass all times moved by the same amount see the same, in every run of the modules
that take times. -/
theorem runs_shift {k : UInt64} {calls : List Call} (hk : Early k 0)
    (hearly : ∀ call ∈ calls, call.Early k) (role : Role) (config : Option Config) :
    observe ping.step (some (ping.createWithConfig role config)) calls =
      observe ping.step (some (ping.createWithConfig role config)) (calls.map (Call.shift k)) ∧
    observe arping.step (some (arping.createWithConfig role config)) calls =
      observe arping.step (some (arping.createWithConfig role config))
        (calls.map (Call.shift k)) ∧
    observe arprecon.step (some (arprecon.createWithConfig role config)) calls =
      observe arprecon.step (some (arprecon.createWithConfig role config))
        (calls.map (Call.shift k)) ∧
    observe traceroute.step (some (traceroute.createWithConfig role config)) calls =
      observe traceroute.step (some (traceroute.createWithConfig role config))
        (calls.map (Call.shift k)) ∧
    observe dnsdiag.step (some (dnsdiag.createWithConfig role config)) calls =
      observe dnsdiag.step (some (dnsdiag.createWithConfig role config))
        (calls.map (Call.shift k)) ∧
    ∀ p, observe (Bwdiag.step p) (some (Bwdiag.createWithConfig role config)) calls =
      observe (Bwdiag.step p) (some (Bwdiag.createWithConfig role config))
        (calls.map (Call.shift k)) :=
  ⟨Ping.shifts.observe_eq role config hk hearly, Arping.shifts.observe_eq role config hk hearly,
    Arprecon.shifts.observe_eq role config hk hearly,
    Traceroute.shifts.observe_eq role config hk hearly,
    Dnsdiag.shifts.observe_eq role config hk hearly,
    fun p => Bwdiag.observe_shift p role config hk hearly⟩

/-- A request and its timeout, a day later. -/
theorem runs_shift_day :
    let calls : List Call := [.feedInputWithTs (some Ping.echoRequest) 1000, .process 2500,
      .nextEvent (some {}), .getStats none]
    let moved := calls.map (Call.shift 86400000)
    observe ping.step (some (ping.createWithConfig .responder none)) calls =
      observe ping.step (some (ping.createWithConfig .responder none)) moved ∧
    observe arping.step (some (arping.createWithConfig .responder none)) calls =
      observe arping.step (some (arping.createWithConfig .responder none)) moved ∧
    observe arprecon.step (some (arprecon.createWithConfig .responder none)) calls =
      observe arprecon.step (some (arprecon.createWithConfig .responder none)) moved ∧
    observe traceroute.step (some (traceroute.createWithConfig .responder none)) calls =
      observe traceroute.step (some (traceroute.createWithConfig .responder none)) moved ∧
    observe dnsdiag.step (some (dnsdiag.createWithConfig .responder none)) calls =
      observe dnsdiag.step (some (dnsdiag.createWithConfig .responder none)) moved ∧
    ∀ p, observe (Bwdiag.step p) (some (Bwdiag.createWithConfig .responder none)) calls =
      observe (Bwdiag.step p) (some (Bwdiag.createWithConfig .responder none)) moved := by
  refine runs_shift (by decide) ?_ .responder none
  intro call hmem
  simp only [List.mem_cons, List.not_mem_nil, or_false] at hmem
  rcases hmem with rfl | rfl | rfl | rfl
  · exact (by decide : Early 86400000 1000)
  · exact (by decide : Early 86400000 2500)
  · exact trivial
  · exact trivial

end Netdiag
