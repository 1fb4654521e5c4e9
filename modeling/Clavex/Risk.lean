import Clavex.Lockout
import Clavex.Policy

/-!
# Risk scores from the login history

`scoreEvents` adds up what the logins of a user give away. It compares a login that has a
country only with the next one in the list. Times are in nanoseconds.
-/

namespace Clavex

namespace Risk

open List

structure LoginEvent where
  status : String
  (userAgent countryCode asnOrg : Option String := none)
  createdAt : Int

inductive Reason where
  | recentFailures (n : Nat)
  | impossibleTravel (origin destination : String)
  | newCountry (country : String)
  | datacenter
  | unusualHour (h : Int)
  | newDevice
  | ueba (flag : String)

def Reason.text : Reason → String
  | recentFailures n => "recent_failures:" ++ toString n ++ "_in_24h"
  | impossibleTravel origin destination => "impossible_travel:" ++ origin ++ "→" ++ destination
  | newCountry country => "new_country:" ++ country
  | datacenter => "datacenter_or_vpn_asn"
  | unusualHour h => "unusual_hour:" ++ (if h < 10 then "0" else "") ++ toString h ++ ":xx_utc"
  | newDevice => "new_device_fingerprint"
  | ueba flag => flag

inductive Level where
  | low
  | medium
  | high
  | critical

structure Score where
  score : Int
  level : Level
  reason : List Reason

def scoreLevel (s : Int) : Level :=
  if 70 ≤ s then .critical else if 40 ≤ s then .high else if 20 ≤ s then .medium else .low

def datacenterKeywords : List String :=
  ["amazon", "aws", "google cloud", "microsoft azure", "microsoft-azure", "digitalocean", "linode", "vultr", "hetzner",
    "ovh", "leaseweb", "cloudflare", "fastly", "akamai", "tor exit", "nordvpn", "expressvpn", "mullvad", "protonvpn",
    "hosting", "datacenter", "data center"]

def isDatacenterASN (asn : String) : Bool := datacenterKeywords.any (strContains (toLower asn) ·)

def uaFingerprint (ua : String) : List UInt8 := ua.toUTF8.toList.take 80

def hours (n : Int) : Int := n * 3600 * nsPerSecond

/-! ## The score -/

/-- The successes with a country, as the loop meets them. -/
def located (recent : List LoginEvent) : List (String × Int) :=
  recent.filterMap fun ev =>
    if ev.status = "success" then (ev.countryCode.filter (· ≠ "")).map (·, ev.createdAt) else none

/-- The loop ends with the first travel, after which nothing of it changes. -/
def impossibleTravel : String × Int → List (String × Int) → Option (String × String)
  | _, [] => none
  | last, (c, t) :: rest =>
    let diff := timeSub last.2 t
    if last.1 ≠ "" ∧ last.1 ≠ c ∧ last.2 ≠ zeroTime ∧ (if diff < 0 then int64 (-diff) else diff) < hours 2 then
      some (last.1, c)
    else impossibleTravel (c, t) rest

def known {α : Type} [DecidableEq α] (events : List LoginEvent) (recentCutoff : Int) (f : LoginEvent → Option α) (a : α) :
    Bool :=
  events.any fun ev => decide (ev.createdAt < recentCutoff ∧ f ev = some a)

def eventSignals (events : List LoginEvent) (recentCutoff : Int) (ev : LoginEvent) : List (Bool × Nat × Reason) :=
  let c := ev.countryCode.getD ""
  let ua := ev.userAgent.getD ""
  let h := Policy.hour ev.createdAt
  [(c != "" && !known events recentCutoff (·.countryCode) c, 15, .newCountry c),
    (ev.asnOrg.any isDatacenterASN, 20, .datacenter),
    (decide (h < 6 ∨ 22 ≤ h), 10, .unusualHour h),
    (ua != "" && !known events recentCutoff (fun e => e.userAgent.map uaFingerprint) (uaFingerprint ua), 15, .newDevice)]

def signals (events : List LoginEvent) (recentCutoff : Int) : List (Nat × Reason) :=
  let recent := events.filter fun ev => decide (recentCutoff ≤ ev.createdAt)
  let failures := recent.countP (·.status = "failure")
  let all : List (Bool × Nat × Reason) :=
    (decide (3 ≤ failures), 15 + min ((failures - 3) * 3) 15, .recentFailures failures) ::
      (impossibleTravel ("", zeroTime) (located recent)).toList.map (fun travel => (true, 25, .impossibleTravel travel.1 travel.2)) ++
      recent.head?.toList.flatMap (eventSignals events recentCutoff)
  (all.filter (·.1)).map (·.2)

/-- `ueba` stands for `ueba.Score` with the baseline built of the earlier events. -/
def scoreEvents (ueba : LoginEvent → List LoginEvent → Nat → Int × List String) (events : List LoginEvent) (now : Int) :
    Score :=
  match events with
  | [] => ⟨0, .low, []⟩
  | first :: rest =>
    let signals := signals events (now - hours 24)
    let recentCount := (rest.takeWhile fun ev => decide (timeSub first.createdAt ev.createdAt ≤ hours 1)).countP
      (·.status = "success")
    let anomaly := if rest.isEmpty then (0, []) else ueba first rest recentCount
    let total := min (((signals.map (·.1)).sum : Nat) + anomaly.1) 100
    ⟨total, scoreLevel total, signals.map (·.2) ++ anomaly.2.map .ueba⟩

/-! ## Neighbours are enough -/

def Jump (p q : String × Int) : Prop := p.1 ≠ q.1 ∧ |p.2 - q.2| < hours 2

def Jumps (l : List (String × Int)) : Prop := ∃ p ∈ l, ∃ q ∈ l, Jump p q

theorem jump_iff {p q} (h : q.2 ≤ p.2) : Jump p q ↔ p.1 ≠ q.1 ∧ p.2 - q.2 < hours 2 := by
  rw [Jump, abs_of_nonneg (by omega)]

/-- A jump from `p` that is none to `q` is one from `q`, which is on the way. -/
theorem jumps_cons_cons {p q l} (hs : (p :: q :: l).Pairwise fun a b => b.2 ≤ a.2) (hpq : ¬ Jump p q) :
    Jumps (p :: q :: l) ↔ Jumps (q :: l) := by
  obtain ⟨hp, hs⟩ := pairwise_cons.mp hs
  obtain ⟨hq, -⟩ := pairwise_cons.mp hs
  have hle := hp q (mem_cons_self ..)
  have hnext : ∀ b ∈ q :: l, Jump p b → Jumps (q :: l) := by
    intro b hb hpb
    rcases mem_cons.mp hb with rfl | hl
    · exact absurd hpb hpq
    have hle' := hq b hl
    rw [jump_iff (hp b hb)] at hpb
    refine ⟨q, mem_cons_self .., b, hb, (jump_iff hle').mpr ⟨fun heq => hpq ?_, by omega⟩⟩
    exact (jump_iff hle).mpr ⟨heq ▸ hpb.1, by omega⟩
  constructor
  · rintro ⟨a, ha, b, hb, hne, hab⟩
    rcases mem_cons.mp ha with rfl | ha'
    · rcases mem_cons.mp hb with rfl | hb
      · exact absurd rfl hne
      · exact hnext b hb ⟨hne, hab⟩
    · rcases mem_cons.mp hb with rfl | hb
      · exact hnext a ha' ⟨hne.symm, abs_sub_comm a.2 b.2 ▸ hab⟩
      · exact ⟨a, ha', b, hb, hne, hab⟩
  · rintro ⟨a, ha, b, hb, hab⟩
    exact ⟨a, mem_cons_of_mem _ ha, b, mem_cons_of_mem _ hb, hab⟩

theorem impossibleTravel_from {p l} (hs : (p :: l).Pairwise fun a b => b.2 ≤ a.2)
    (hl : ∀ q ∈ p :: l, q.1 ≠ "" ∧ q.2 ≠ zeroTime) :
    (impossibleTravel p l).isSome = true ↔ Jumps (p :: l) := by
  induction l generalizing p with
  | nil => simp [impossibleTravel, Jumps, Jump]
  | cons q l ih =>
    obtain ⟨hp, hl⟩ := forall_mem_cons.mp hl
    have hle := (pairwise_cons.mp hs).1 q (mem_cons_self ..)
    have hdiff : 0 ≤ timeSub p.2 q.2 ∧ (timeSub p.2 q.2 < hours 2 ↔ p.2 - q.2 < hours 2) := by
      unfold timeSub hours nsPerSecond
      omega
    simp only [impossibleTravel, hp, ne_eq, not_false_eq_true, true_and, if_neg (Int.not_lt.mpr hdiff.1), hdiff.2]
    by_cases hj : Jump p q
    · rw [if_pos ((jump_iff hle).mp hj)]
      exact ⟨fun _ => ⟨p, mem_cons_self .., q, by simp, hj⟩, fun _ => rfl⟩
    · rw [if_neg (mt (jump_iff hle).mpr hj), jumps_cons_cons hs hj]
      exact ih (pairwise_cons.mp hs).2 hl

theorem impossibleTravel_iff {l} (hs : l.Pairwise fun a b => b.2 ≤ a.2) (hl : ∀ q ∈ l, q.1 ≠ "" ∧ q.2 ≠ zeroTime) :
    (impossibleTravel ("", zeroTime) l).isSome = true ↔ Jumps l := by
  cases l with
  | nil => simp [impossibleTravel, Jumps]
  | cons q l =>
    rw [impossibleTravel, if_neg (by simp)]
    exact impossibleTravel_from hs hl

/-! ## Impossible travel -/

def Located (cutoff : Int) (ev : LoginEvent) (country : String) : Prop :=
  cutoff ≤ ev.createdAt ∧ ev.status = "success" ∧ ev.countryCode = some country ∧ country ≠ ""

theorem mem_located {events : List LoginEvent} {cutoff q} :
    q ∈ located (events.filter fun ev => decide (cutoff ≤ ev.createdAt)) ↔
      ∃ ev ∈ events, Located cutoff ev q.1 ∧ ev.createdAt = q.2 := by
  simp only [located, mem_filterMap, mem_filter, decide_eq_true_eq, Located, Option.ite_none_right_eq_some,
    Option.map_eq_some_iff, Option.filter_eq_some_iff]
  grind

theorem travel_mem_reason {ueba events now} :
    (∃ origin destination, .impossibleTravel origin destination ∈ (scoreEvents ueba events now).reason) ↔
      (impossibleTravel ("", zeroTime) (located (events.filter fun ev => decide (now - hours 24 ≤ ev.createdAt)))).isSome =
        true := by
  cases events with
  | nil => simp [scoreEvents, located, impossibleTravel]
  | cons first rest =>
    rw [Option.isSome_iff_exists, Prod.exists]
    simp [scoreEvents, signals, eventSignals]

theorem impossible_travel_iff (ueba : LoginEvent → List LoginEvent → Nat → Int × List String) (events : List LoginEvent)
    (now : Int) (hsorted : events.Pairwise fun a b => b.createdAt ≤ a.createdAt)
    (hzero : ∀ ev ∈ events, ev.createdAt ≠ zeroTime) :
    (∃ origin destination, .impossibleTravel origin destination ∈ (scoreEvents ueba events now).reason) ↔
      ∃ a ∈ events, ∃ b ∈ events, ∃ c c', Located (now - hours 24) a c ∧ Located (now - hours 24) b c' ∧ c ≠ c' ∧
        |a.createdAt - b.createdAt| < hours 2 := by
  rw [travel_mem_reason, impossibleTravel_iff]
  · unfold Jumps Jump
    simp only [mem_located, Prod.exists]
    grind
  · refine (hsorted.filter _).filterMap _ fun a b hab p hp q hq => ?_
    simp only [Option.ite_none_right_eq_some, Option.map_eq_some_iff] at hp hq
    obtain ⟨-, c, -, rfl⟩ := hp
    obtain ⟨-, c', -, rfl⟩ := hq
    exact hab
  · intro q hq
    obtain ⟨ev, hev, hloc, heq⟩ := mem_located.mp hq
    exact ⟨hloc.2.2.2, heq ▸ hzero ev hev⟩

def flight (t t' : Int) : List LoginEvent :=
  [{ status := "success", countryCode := some "FR", createdAt := t }, { status := "success", countryCode := some "IT", createdAt := t' }]

def flightReasons (t t' now : Int) : List String := (scoreEvents (fun _ _ _ => (0, [])) (flight t t') now).reason.map Reason.text

theorem impossible_travel_iff_flight :
    flightReasons (hours 13) (hours 12) (hours 14) = ["impossible_travel:FR→IT", "new_country:FR"] ∧
    ∃ origin destination, .impossibleTravel origin destination ∈
      (scoreEvents (fun _ _ _ => (0, [])) (flight (hours 13) (hours 12)) (hours 14)).reason := by
  refine ⟨by decide +kernel, (impossible_travel_iff _ _ _ (by decide) (by decide)).mpr ?_⟩
  exact ⟨_, mem_cons_self .., _, mem_cons_of_mem _ (mem_cons_self ..), "FR", "IT", by unfold Located; decide⟩

/-- Two logins at the zero time, which is taken for none yet, and two that are ahead of the clock. -/
theorem travel_missed_or_ahead :
    (flightReasons zeroTime zeroTime (zeroTime + hours 1) = ["new_country:FR", "unusual_hour:00:xx_utc"] ∧
      ∀ ev ∈ flight zeroTime zeroTime, zeroTime - hours 23 ≤ ev.createdAt ∧ ev.createdAt ≤ zeroTime + hours 1) ∧
    flightReasons (hours 13) (hours 12) 0 = ["impossible_travel:FR→IT", "new_country:FR"] ∧
      ∀ ev ∈ flight (hours 13) (hours 12), 0 < ev.createdAt := by
  decide +kernel

end Risk

end Clavex
