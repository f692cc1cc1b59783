import Netdiag.Probe.Arprecon

/-!
# Arrays — the neighbour table of arprecon as the C arrays are

In `Arprecon.Own` the number of neighbours is at most 64 and slots are `Fin 64`, so there is no
index that the table does not have.  Here `neigh_count` is any number and each access to
`neigh_macs` and `neigh_ips` looks whether the index is one; one that is not is a fault.

The module over these arrays mirrors the one over the bounded table (`mirrors`): both do the same
call by call, from contexts that differ in the form of the table only.  So in no context that a
history leads to is an array accessed outside (`feedInputWithTs_ne_noSlot`).
-/

namespace Netdiag

open Lib

namespace Probe

variable {X Y : Type}

/-! ## Modules that mirror each other -/

/-- The context with its module's own fields in another form. -/
def Ctx.map (f : X → Y) (c : Ctx X) : Ctx Y :=
  { c with own := f c.own }

/-- The second module does with fields in another form what the first one does. -/
structure Module.Mirrors (f : X → Y) (m : Module X) (m' : Module Y) : Prop where
  calloc : m'.calloc = f m.calloc
  clear (x : X) : m'.clear (f x) = f (m.clear x)
  minLen : m'.minLen = m.minLen
  body (c : Ctx X) (d : List UInt8) (ts : UInt64) :
    RelOk (fun b a => b = a.map f) (m'.body (c.map f) d ts) (m.body c d ts)
  tick (c : Ctx X) (ts : UInt64) : m'.tick (c.map f) ts = (m.tick c ts).map f
  lossPct (c : Ctx X) : m'.lossPct (c.map f) = m.lossPct c
  aside (c' c'' : Ctx Y) : ¬ m'.aside c' c''

namespace Module.Mirrors

variable {f : X → Y} {m : Module X} {m' : Module Y}

theorem createWithConfig (h : m.Mirrors f m') (role : Role) (config : Option Config) :
    m'.createWithConfig role config = (m.createWithConfig role config).map f := by
  show Ctx.init _ _ _ (m'.clear m'.calloc) _ = _
  rw [h.calloc, h.clear]
  rfl

/-- A call that hands a packet to the module. -/
theorem feedInputWithTs (h : m.Mirrors f m') (c : Ctx X) (d : List UInt8) (ts : UInt64) :
    RelOk (fun y x => y.2 = x.2.map (Ctx.map f) ∧ y.1 = x.1)
      (m'.feedInputWithTs (some (c.map f)) (some d) ts)
      (m.feedInputWithTs (some c) (some d) ts) := by
  by_cases hlen : d.length < m.minLen
  · rw [feedInputWithTs_of_short hlen, feedInputWithTs_of_short (h.minLen ▸ hlen)]
    exact .ok ⟨rfl, rfl⟩
  · have hle := Nat.le_of_not_lt hlen
    rw [feedInputWithTs_of_le hle, feedInputWithTs_of_le (h.minLen ▸ hle)]
    exact (h.body c d ts).bind fun b a hmap => .ok ⟨congrArg some hmap, rfl⟩

/-- The step lemma: each call gives the same and leaves contexts that mirror each other. -/
theorem step (h : m.Mirrors f m') (c : Ctx X) (call : Call) :
    RelOk (fun y x => y.1 = x.1.map (Ctx.map f) ∧ y.2 = x.2) (m'.step (some (c.map f)) call)
      (m.step (some c) call) := by
  have hfeeds : ∀ d ts, call.Feeds d ts →
      RelOk (fun y x => y.1 = x.1.map (Ctx.map f) ∧ y.2 = x.2) (m'.step (some (c.map f)) call)
        (m.step (some c) call) := by
    intro d ts hcall
    rw [step_feed hcall, step_feed hcall]
    exact (h.feedInputWithTs c d ts).bind fun y x hsame =>
      .ok ⟨hsame.1, congrArg Result.code hsame.2⟩
  cases call with
  | feedInput d =>
      cases d with
      | none => exact .ok ⟨rfl, rfl⟩
      | some d => exact hfeeds d 0 (.inr ⟨rfl, rfl⟩)
  | feedInputWithTs d ts =>
      cases d with
      | none => exact .ok ⟨rfl, rfl⟩
      | some d => exact hfeeds d ts (.inl rfl)
  | process ts => exact .ok ⟨congrArg some (h.tick c ts), rfl⟩
  | nextEvent e =>
      cases e with
      | none => exact .ok ⟨rfl, rfl⟩
      | some e => exact .ok ⟨rfl, rfl⟩
  | getStats s =>
      cases s with
      | none => exact .ok ⟨rfl, rfl⟩
      | some s =>
          have hstats : (c.map f).stats (m'.lossPct (c.map f)) = c.stats (m.lossPct c) := by
            rw [h.lossPct]
            rfl
          exact .ok ⟨rfl, congrArg (fun st => Result.stats 0 (some st)) hstats⟩
  | reset =>
      refine .ok ⟨?_, rfl⟩
      show some (Ctx.init _ _ _ (m'.clear (f c.own)) _) = _
      rw [h.clear]
      rfl

/-- Every context that a history of the second module leads to mirrors one of the first. -/
theorem reachable (h : m.Mirrors f m') {c' : Ctx Y} (hc : m'.Reachable c') :
    ∃ c, m.Reachable c ∧ c' = c.map f := by
  induction hc with
  | create role config => exact ⟨_, .create role config, h.createWithConfig role config⟩
  | call _ hstep ih =>
      rcases ih with ⟨c, hc, rfl⟩
      rcases (h.step c _).of_ok hstep with ⟨⟨p, r⟩, hstep', hptr, _⟩
      rcases step_transition hstep' with ⟨c₁, rfl, _⟩
      exact ⟨c₁, .call hc hstep', Option.some.inj hptr⟩
  | aside _ hside _ => exact absurd hside (h.aside _ _)

theorem observe_eq (h : m.Mirrors f m') (role : Role) (config : Option Config)
    (calls : List Call) :
    observe m'.step (some (m'.createWithConfig role config)) calls =
      observe m.step (some (m.createWithConfig role config)) calls := by
  refine observe_eq_of_bisim (R := fun p q => ∃ c, q = some c ∧ p = some (Ctx.map f c)) ?_
    ⟨_, rfl, congrArg some (h.createWithConfig role config)⟩ calls
  rintro _ _ call ⟨c, rfl, rfl⟩
  refine (h.step c call).attach.mono ?_
  rintro ⟨p, r⟩ ⟨q, r'⟩ ⟨⟨hptr, hresult⟩, _, hstep⟩
  rcases step_transition hstep with ⟨c₁, rfl, _⟩
  exact ⟨⟨c₁, rfl, hptr⟩, hresult⟩

end Module.Mirrors
end Probe

namespace Arprecon

open Probe (Role Event EventType)

/-! ## Reads outside the packet -/

/-- A byte outside the packet was read. -/
def OutOfPacket (e : Fault) : Prop :=
  ∃ i, e = .outOfBounds i

theorem rd_fails (d : List UInt8) (i : Nat) : ErrorAll OutOfPacket (rd d i) := by
  rw [rd]
  cases d[i]? with
  | some b => exact .ok b
  | none => exact .error ⟨i, rfl⟩

theorem rd16Be_fails (d : List UInt8) (i : Nat) : ErrorAll OutOfPacket (rd16Be d i) :=
  (rd_fails d i).bind fun _ => (rd_fails d (i + 1)).bind fun _ => .ok _

theorem rd32Be_fails (d : List UInt8) (i : Nat) : ErrorAll OutOfPacket (rd32Be d i) :=
  (rd_fails d i).bind fun _ => (rd_fails d (i + 1)).bind fun _ =>
    (rd_fails d (i + 2)).bind fun _ => (rd_fails d (i + 3)).bind fun _ => .ok _

theorem memcpy_fails (d : List UInt8) (i n : Nat) : ErrorAll OutOfPacket (memcpy d i n) := by
  rw [memcpy]
  split_ifs
  · exact .ok _
  · exact .error ⟨_, rfl⟩

theorem learn_fails (c : Ctx) (d : List UInt8) : ErrorAll OutOfPacket (learn c d) := by
  rw [learn]
  split_ifs
  · exact (memcpy_fails d 22 6).bind fun _ => (rd32Be_fails d 28).bind fun _ => .ok _
  · exact .ok _

/-- All that the bounded table leaves to go wrong are reads of the packet. -/
theorem feedBody_fails (c : Ctx) (d : List UInt8) (ts : UInt64) :
    ErrorAll OutOfPacket (feedBody c d ts) := by
  rw [feedBody, arpBody]
  split_ifs
  · refine (rd_fails d 12).bind fun t₀ => (rd_fails d 13).bind fun t₁ => ?_
    split_ifs
    · refine (rd16Be_fails d 20).bind fun op => ?_
      split_ifs
      · exact (memcpy_fails d 22 6).bind fun mac => learn_fails _ d
      · exact .ok _
      · exact .ok _
    · exact .ok _
  · exact .ok _

/-! ## The arrays -/

/-- The neighbour table of `struct arprecon_ctx`. -/
structure Arrays where
  neighMacs : Vector (Vector UInt8 6) maxNeigh
  neighIps : Vector UInt32 maxNeigh
  neighCount : Int
  deriving DecidableEq, Repr

namespace Arrays

/-- The element of `neigh_macs` and `neigh_ips` at an index. -/
def slot (i : Int) : Except Fault (Fin maxNeigh) :=
  if h : 0 ≤ i ∧ i < maxNeigh then
    .ok ⟨i.toNat, (Int.toNat_lt h.1).2 h.2⟩
  else
    .error (.noSlot i)

example : slot 63 = .ok 63 ∧ slot 64 = .error (.noSlot 64) ∧ slot (-1) = .error (.noSlot (-1)) :=
  ⟨rfl, rfl, rfl⟩

/-- The assignments to `neigh_macs[neigh_count]` and `neigh_ips[neigh_count]`. -/
def add (a : Arrays) (mac : Vector UInt8 6) (ip : UInt32) (free : Fin maxNeigh) : Arrays where
  neighMacs := a.neighMacs.set free.1 mac free.2
  neighIps := a.neighIps.set free.1 ip free.2
  neighCount := a.neighCount + 1

/-- One turn of the loop of the spoof detection, which looks up the last address each time. -/
def spoofTurn (mac : Vector UInt8 6) (c : Probe.Ctx Arrays) (i : Nat) :
    Except Fault (Probe.Ctx Arrays) := do
  let other ← slot i
  let last ← slot (c.own.neighCount - 1)
  if c.own.neighIps.get other = c.own.neighIps.get last ∧ c.own.neighMacs.get other ≠ mac then
    return { c.qpush spoofEvent with dups := c.dups + 1 }
  else
    return c

/-- The loop of the spoof detection, with `i` from 0 to below `neigh_count - 1`. -/
def spoofLoop (mac : Vector UInt8 6) (c : Probe.Ctx Arrays) : Except Fault (Probe.Ctx Arrays) :=
  (List.range (c.own.neighCount - 1).toNat).foldlM (spoofTurn mac) c

/-- What is done with a MAC and an address that a reply was found to have. -/
def enter (c : Probe.Ctx Arrays) (mac : Vector UInt8 6) (ip : UInt32) :
    Except Fault (Probe.Ctx Arrays) := do
  let free ← slot c.own.neighCount
  spoofLoop mac { c with own := c.own.add mac ip free }

/-- The neighbour table and the spoof detection, with each index that the C code takes. -/
def learn (c : Probe.Ctx Arrays) (d : List UInt8) : Except Fault (Probe.Ctx Arrays) := do
  if c.own.neighCount < maxNeigh then
    let mac ← memcpy d 22 6
    let ip ← rd32Be d 28
    enter c mac ip
  else
    return c

def arprecon : Probe.Module Arrays where
  calloc :=
    { neighMacs := Vector.replicate maxNeigh (Vector.replicate 6 0)
      neighIps := Vector.replicate maxNeigh 0
      neighCount := 0 }
  clear a := { a with neighCount := 0 }
  minLen := 14
  body := arpBody learn
  tick := processBody
  lossPct := Probe.Ctx.lossPct

end Arrays

/-! ## The bounded table is the arrays -/

def Own.arrays (o : Own) : Arrays where
  neighMacs := o.neighMacs
  neighIps := o.neighIps
  neighCount := o.neighCount

namespace Arrays

theorem slot_of_lt {i : Nat} (h : i < maxNeigh) : slot i = .ok ⟨i, h⟩ :=
  dif_pos ⟨Int.natCast_nonneg i, Int.ofNat_lt.2 h⟩

/-- The indices of the loop are those of the slots in front of slot `n`. -/
theorem range_eq_slotsBelow (n : Nat) (hn : n ≤ maxNeigh) :
    List.range n = (slotsBelow n hn).map Fin.val := by
  rw [slotsBelow, List.map_map]
  exact (List.map_coe_finRange_eq_range).symm

/-- The table has been given the address that its last slot holds. -/
def LastIs (o : Own) (ip : UInt32) : Prop :=
  ∃ h : o.neighCount - 1 < maxNeigh, 0 < o.neighCount ∧ o.neighIps[o.neighCount - 1] = ip

theorem spoofTurn_map {c : Ctx} {ip : UInt32} (hlast : LastIs c.own ip) (mac : Vector UInt8 6)
    (i : Fin maxNeigh) :
    spoofTurn mac (c.map Own.arrays) i = .ok ((spoofStep ip mac c i).map Own.arrays) := by
  rcases hlast with ⟨hlt, hpos, rfl⟩
  have hindex : (c.own.neighCount : Int) - 1 = (c.own.neighCount - 1 : Nat) := by omega
  have hslot : slot ((c.map Own.arrays).own.neighCount - 1) = .ok ⟨c.own.neighCount - 1, hlt⟩ := by
    show slot ((c.own.neighCount : Int) - 1) = _
    rw [hindex, slot_of_lt hlt]
  rw [spoofTurn, slot_of_lt i.2, hslot, spoofStep]
  simp only [bind, Except.bind, pure, Except.pure]
  by_cases hconflict : c.own.Conflicts i c.own.neighIps[c.own.neighCount - 1] mac
  · rw [if_pos hconflict]
    exact if_pos hconflict
  · rw [if_neg hconflict]
    exact if_neg hconflict

theorem spoofStep_own (ip : UInt32) (mac : Vector UInt8 6) (c : Ctx) (i : Fin maxNeigh) :
    (spoofStep ip mac c i).own = c.own := by
  rw [spoofStep]
  split_ifs <;> rfl

theorem foldlM_spoofTurn_map {ip : UInt32} (mac : Vector UInt8 6) (slots : List (Fin maxNeigh))
    {c : Ctx} (hlast : LastIs c.own ip) :
    (slots.map Fin.val).foldlM (spoofTurn mac) (c.map Own.arrays) =
      .ok ((slots.foldl (spoofStep ip mac) c).map Own.arrays) := by
  induction slots generalizing c with
  | nil => rfl
  | cons i slots ih =>
      rw [List.map_cons, List.foldlM_cons, spoofTurn_map hlast, List.foldl_cons]
      exact ih ((spoofStep_own ip mac c i).symm ▸ hlast)

/-- The run lemma of the loop, from a table that has just been given an address. -/
theorem spoofLoop_map {c : Ctx} {ip : UInt32} (hlast : LastIs c.own ip) (mac : Vector UInt8 6)
    {n : Nat} (hn : n ≤ maxNeigh) (hcount : c.own.neighCount = n + 1) :
    spoofLoop mac (c.map Own.arrays) =
      .ok (((slotsBelow n hn).foldl (spoofStep ip mac) c).map Own.arrays) := by
  have hturns : ((c.map Own.arrays).own.neighCount - 1).toNat = n := by
    show ((c.own.neighCount : Int) - 1).toNat = n
    omega
  rw [spoofLoop, hturns, range_eq_slotsBelow n hn]
  exact foldlM_spoofTurn_map mac _ hlast

theorem lastIs_add (o : Own) (mac : Vector UInt8 6) (ip : UInt32) (h : o.neighCount < maxNeigh) :
    LastIs (o.add mac ip h) ip := by
  refine ⟨h, Nat.succ_pos _, ?_⟩
  simp [Own.add]

/-- From the bounded table on, the arrays are accessed inside whatever MAC and address it is. -/
theorem enter_map (c : Ctx) (hroom : c.own.neighCount < maxNeigh) (mac : Vector UInt8 6)
    (ip : UInt32) :
    enter (c.map Own.arrays) mac ip =
      .ok (((slotsBelow c.own.neighCount c.own.neighCount_le).foldl (spoofStep ip mac)
        { c with own := c.own.add mac ip hroom }).map Own.arrays) := by
  rw [enter, show slot (c.map Own.arrays).own.neighCount = _ from slot_of_lt hroom]
  exact spoofLoop_map (c := { c with own := c.own.add mac ip hroom })
    (lastIs_add c.own mac ip hroom) mac c.own.neighCount_le rfl

theorem learn_map (c : Ctx) (d : List UInt8) :
    RelOk (fun b a => b = a.map Own.arrays) (learn (c.map Own.arrays) d)
      (Arprecon.learn c d) := by
  rw [learn, Arprecon.learn]
  by_cases hroom : c.own.neighCount < maxNeigh
  · have hroom' : (c.map Own.arrays).own.neighCount < maxNeigh := Int.ofNat_lt.2 hroom
    rw [if_pos hroom', dif_pos hroom]
    refine RelOk.bind_same (memcpy d 22 6) fun mac => RelOk.bind_same (rd32Be d 28) fun ip => ?_
    exact (enter_map c hroom mac ip).symm ▸ .ok rfl
  · have hfull : ¬ (c.map Own.arrays).own.neighCount < maxNeigh :=
      fun h => hroom (Int.ofNat_lt.1 h)
    rw [if_neg hfull, dif_neg hroom]
    exact .ok rfl

theorem body_map (c : Ctx) (d : List UInt8) (ts : UInt64) :
    RelOk (fun b a => b = a.map Own.arrays) (arpBody learn (c.map Own.arrays) d ts)
      (feedBody c d ts) := by
  have hrole : (c.map Own.arrays).role = c.role := rfl
  rw [feedBody, arpBody, arpBody]
  split_ifs with hlen
  · refine RelOk.bind_same (rd d 12) fun t₀ => RelOk.bind_same (rd d 13) fun t₁ => ?_
    split_ifs with htype
    · refine RelOk.bind_same (rd16Be d 20) fun op => ?_
      rw [hrole]
      split_ifs
      · exact RelOk.bind_same (memcpy d 22 6) fun mac => learn_map (c.reply _ ts) d
      · exact .ok rfl
      · exact .ok rfl
    · exact .ok rfl
  · exact .ok rfl

theorem tick_map (c : Ctx) (ts : UInt64) :
    processBody (c.map Own.arrays) ts = (processBody c ts).map Own.arrays := by
  rw [processBody, processBody]
  by_cases hexpired : c.Expired ts
  · rw [if_pos hexpired]
    exact if_pos hexpired
  · rw [if_neg hexpired]
    exact if_neg hexpired

theorem mirrors : Arprecon.arprecon.Mirrors Own.arrays arprecon where
  calloc := rfl
  clear _ := rfl
  minLen := rfl
  body := body_map
  tick := tick_map
  lossPct _ := rfl
  aside _ _ := id

/-- In every context that a history leads to, whatever the packet is, each index into the arrays
is one that they have. -/
theorem feedInputWithTs_ne_noSlot {c : Probe.Ctx Arrays} (h : arprecon.Reachable c)
    (d : List UInt8) (ts : UInt64) (i : Int) :
    arprecon.feedInputWithTs (some c) (some d) ts ≠ .error (.noSlot i) := by
  rcases mirrors.reachable h with ⟨c, _, rfl⟩
  intro hfault
  by_cases hlen : d.length < 14
  · rw [Probe.Module.feedInputWithTs_of_short hlen] at hfault
    cases hfault
  · rw [Probe.Module.feedInputWithTs_of_le (Nat.le_of_not_lt hlen)] at hfault
    have hbody : ErrorAll OutOfPacket (arprecon.body (c.map Own.arrays) d ts >>=
        fun c => Except.ok ((0 : Int), some c)) :=
      (ErrorAll.of_relOk (body_map c d ts) (feedBody_fails c d ts)).bind fun _ => .ok _
    rcases hbody _ hfault with ⟨j, hj⟩
    cases hj

/-- Nor would one be if other bytes were read: while there is room, any MAC and any address can be
entered. -/
theorem enter_returns {c : Probe.Ctx Arrays} (h : arprecon.Reachable c)
    (hroom : c.own.neighCount < maxNeigh) (ev : Event) (ts : UInt64) (mac : Vector UInt8 6)
    (ip : UInt32) : ∃ c', enter (c.reply ev ts) mac ip = .ok c' := by
  rcases mirrors.reachable h with ⟨c, _, rfl⟩
  exact ⟨_, enter_map (c.reply ev ts) (Int.ofNat_lt.1 hroom) mac ip⟩

end Arrays
end Arprecon
end Netdiag
