-- The counter of a cookie over whole runs. The two high bits count the cookies
-- of an entry modulo 4, so they keep a cookie away from the handshake marker
-- for three cookies of four.
import EdgeCookie.CookieRun
import Mathlib.Data.Option.Basic

namespace edge_cookie

open bytes headers server runs
open server_in (inView createVal)
open server_en (ackVal)

/-! ## The history of a cookie -/

/-- The SYN cookie of a flow, the seed of its last cookie, and how many cookies
were made since the counter started. A seed of 0 reads as "no cookie yet", so
the counter starts again behind it. -/
structure Tally where
  hash_cookie : U32
  seed : U32
  cookies : Nat
  deriving DecidableEq, Repr

def Tally.refresh (seed : U32) (t : Tally) : Tally :=
  if t.seed = seed then t
  else { t with seed, cookies := if t.seed = 0 then 1 else t.cookies + 1 }

def tallyStep (t : Option Tally) : FlowEvent → Option Tally
  | .syn seed tsecr => some ⟨tsecr, seed, 1⟩
  | .create ack_seq => some ⟨htonl (ntohl ack_seq - 1), 0, 0⟩
  | .data seed => t.map (Tally.refresh seed)
  | _ => t

/-- The history of the cookie of the flow `k`, after the events. -/
def tally (K : Helpers) (k : map_key_t) (es : List Event) : Option Tally :=
  run tallyStep none (flowTrace K k Server.boot es)

/-- The entry has the cookie that the history says. -/
structure TallyOk (ip : U32) (t : Tally) (val : map_val_t) : Prop where
  hash : val.hash_cookie = t.hash_cookie
  seed : val.cur_hash_seed = t.seed
  none : t.cookies = 0 → val.hybrid_cookie = 0 ∧ t.seed = 0
  some : 0 < t.cookies → counter (ntohl val.hybrid_cookie) = t.cookies % 4 ∧ CookieOk ip val

theorem tallyOk_sameCookie {ip : U32} {t : Tally} {val val' : map_val_t} (h : TallyOk ip t val)
    (hs : SameCookie val val') : TallyOk ip t val' := by
  refine ⟨hs.hash.trans h.hash, hs.seed.trans h.seed, fun h0 => ?_, fun hpos => ?_⟩
  · rw [hs.hybrid]
    exact h.none h0
  · obtain ⟨hcount, hok⟩ := h.some hpos
    refine ⟨by rw [hs.hybrid]; exact hcount, ?_, ?_⟩
    · rw [hs.hybrid, hs.hash]
      exact hok.hash
    · rw [hs.hybrid, hs.seed]
      exact hok.map

theorem tallyOk_first (ip seed : U32) (val : map_val_t) :
    TallyOk ip ⟨val.hash_cookie, seed, 1⟩
      (withCookie val (firstCookie val.hash_cookie ip seed) seed) := by
  refine ⟨withCookie_hash _ _ _, withCookie_seed _ _ _, fun h => absurd h one_ne_zero,
    fun _ => ⟨?_, cookieOk_first ip seed val⟩⟩
  rw [withCookie_hybrid, counter_firstCookie]
  rfl

/-- A data ACK counts a cookie when the seed is new. -/
theorem tallyOk_refresh {ip : U32} {t : Tally} {val : map_val_t} (h : TallyOk ip t val)
    (seed : U32) :
    TallyOk ip (t.refresh seed) (refresh ip seed val) := by
  unfold Tally.refresh
  by_cases hs : t.seed = seed
  · rw [if_pos hs, refresh_same ip (h.seed.trans hs)]
    exact h
  rw [if_neg hs]
  by_cases h0 : t.seed = 0
  · rw [if_pos h0, refresh_first ip (fun hz => hs (h0.trans hz.symm)) (h.seed.trans h0), ← h.hash]
    exact tallyOk_first ip seed val
  · -- The seed in the entry is not 0, so a cookie is there.
    have hpos : 0 < t.cookies := Nat.pos_of_ne_zero fun hz => h0 (h.none hz).2
    obtain ⟨hcount, hok⟩ := h.some hpos
    have hseed : val.cur_hash_seed ≠ seed := fun he => hs (h.seed.symm.trans he)
    have hzero : val.cur_hash_seed ≠ 0 := fun he => h0 (h.seed.symm.trans he)
    rw [if_neg h0, refresh_next ip hseed hzero]
    refine ⟨(withCookie_hash _ _ _).trans h.hash, withCookie_seed _ _ _,
      fun hz => absurd hz (Nat.succ_ne_zero _), fun _ => ⟨?_, cookieOk_next seed hok⟩⟩
    rw [withCookie_hybrid, counter_nextCookie, hcount]
    dsimp only
    omega

theorem tallyOk_step {ip : U32} {t : Option Tally} {entry : Option map_val_t}
    (h : Option.Rel (TallyOk ip) t entry) (f : FlowEvent) :
    Option.Rel (TallyOk ip) (tallyStep t f) (flowStep ip entry f) := by
  cases f with
  | other => exact h
  | syn seed tsecr => exact .some (tallyOk_first ip seed { hash_cookie := tsecr })
  | create ack_seq =>
    exact .some ⟨rfl, rfl, fun _ => ⟨rfl, rfl⟩, fun hpos => absurd hpos (Nat.lt_irrefl 0)⟩
  | data seed =>
    cases h with
    | none => exact .none
    | some h => exact .some (tallyOk_refresh h seed)
  | synack seq tsval =>
    cases h with
    | none => exact .none
    | some h => exact .some (tallyOk_sameCookie h (sameCookie_synackEntry _ seq tsval))
  | ack tsval =>
    cases h with
    | none => exact .none
    | some h => exact .some (tallyOk_sameCookie h (sameCookie_ackVal _ tsval))

theorem tallyOk_tally (K : Helpers) (k : map_key_t) (es : List Event) :
    Option.Rel (TallyOk k.src_ip) (tally K k es)
      ((run (serverStep K) Server.boot es).conntrack_map.lookup k) := by
  rw [lookup_run]
  exact run_related (Option.Rel (TallyOk k.src_ip)) (fun _ _ f h => tallyOk_step h f) _ .none

/-! ## Cookies and the handshake marker -/

/-- A field with the value `TS_START` has the counter 0, the hash bits 0x0101
and the map cookie 0. -/
theorem eq_TS_START_iff (x : U32) :
    x = TS_START ↔ counter (ntohl x) = 0 ∧ hashBits (ntohl x) = 0x0101#14 ∧
    mapBits (ntohl x) = 0 := by
  have hswap : x = TS_START ↔ ntohl x = 0x01010000#32 := by
    constructor
    · intro h
      rw [h]
      exact bswap32_bswap32 _
    · intro h
      have hx : ntohl (ntohl x) = x := bswap32_bswap32 x
      rw [← hx, h]
      rfl
  rw [hswap]
  constructor
  · intro h
    rw [h]
    decide
  · rintro ⟨hc, hh, hm⟩
    apply BitVec.eq_of_toNat_eq
    rw [toNat_parts, hc, hh, hm]
    rfl

/-- In every state that the server agent reaches, the cookie of an entry is not
`TS_START`, unless a multiple of four cookies was made, the folded SYN cookie
ends in 0x0101, and the map cookie under the seed of the last one is 0. -/
theorem a_cookie_is_no_marker_iff (K : Helpers) (es : List Event) (k : map_key_t) (val : map_val_t)
    (hval : (run (serverStep K) Server.boot es).conntrack_map.lookup k = some val) :
    val.hybrid_cookie ≠ TS_START ↔
      ∀ t, tally K k es = some t →
        ¬ (0 < t.cookies ∧ t.cookies % 4 = 0 ∧ foldBits t.hash_cookie = 0x0101#14 ∧
          mapCookie k.src_ip t.seed = 0) := by
  have hinv := tallyOk_tally K k es
  rw [hval] at hinv
  generalize tally K k es = o at hinv ⊢
  cases hinv with
  | some h =>
    rename_i t
    rw [ne_eq, eq_TS_START_iff]
    constructor
    · intro hne t' ht'
      obtain rfl := Option.some.inj ht'
      rintro ⟨hpos, hcount, hhash, hmap⟩
      obtain ⟨hc, hok⟩ := h.some hpos
      refine hne ⟨hc.trans hcount, ?_, ?_⟩
      · rw [hok.hash, h.hash, hhash]
      · rw [hok.map, h.seed, hmap]
    · rintro hno ⟨hc, hh, hm⟩
      refine hno t rfl ?_
      rcases Nat.eq_zero_or_pos t.cookies with hz | hpos
      · -- An entry without a cookie has the field 0, with the hash bits 0.
        rw [(h.none hz).1] at hh
        exact absurd hh (by decide)
      · obtain ⟨hcount, hok⟩ := h.some hpos
        refine ⟨hpos, hcount.symm.trans hc, ?_, ?_⟩
        · rw [← h.hash, ← hok.hash, hh]
        · rw [← h.seed, ← hok.map, hm]

/-- The cookie of the client under its first seed is no marker. -/
theorem the_first_cookie_of_the_client_is_no_marker :
    ∃ val,
      (run (serverStep kernelHelpers) Server.boot (clientRun [5])).conntrack_map.lookup clientKey =
        some val ∧ val.hybrid_cookie ≠ TS_START := by
  have hsome : (noted kernelHelpers clientKey (clientRun [5])).entry.isSome := by
    rw [noted_clientRun]
    decide
  obtain ⟨val, hval⟩ := Option.isSome_iff_exists.mp hsome
  rw [noted_entry] at hval
  refine ⟨val, hval,
    (a_cookie_is_no_marker_iff kernelHelpers (clientRun [5]) clientKey val hval).mpr ?_⟩
  intro t ht
  have hcount : (tally kernelHelpers clientKey (clientRun [5])).map (·.cookies) = some 1 := by
    unfold tally
    rw [flowTrace_clientRun]
    decide
  rw [ht] at hcount
  obtain hone : t.cookies = 1 := Option.some.inj hcount
  rw [hone]
  rintro ⟨-, h4, -⟩
  cases h4

/-- The ACK for a SYN cookie with the fold 0x0101. -/
def markerAck : Pkt :=
  .segment switch_agent.client_ip switch_agent.server_ip 7 80 1 (htonl 0x01010001) 0x10 5 TS_START

/-- The connection of the client with this cookie, and one data ACK under each
seed. -/
def markerRun (seeds : List U32) : List Event :=
  .ingress (0, 0) markerAck :: reseed dataAck clientKey.src_ip seeds

theorem flowTrace_markerRun (seeds : List U32) :
    flowTrace kernelHelpers clientKey Server.boot (markerRun seeds) =
      .create (htonl 0x01010001) :: seeds.flatMap fun seed => [.other, .data seed] := by
  have hview : inView markerAck = .create 34 56 := by decide
  have hack : markerAck.ack_seq 34 = htonl 0x01010001 := by decide
  rw [← hack]
  exact flowTrace_connection kernelHelpers hview (by decide) inView_dataAck (by decide) seeds

/-- Four seeds, and the map cookie of the client under the last one is 0. -/
theorem the_fourth_cookie_of_the_client_is_the_marker :
    ∃ val, (run (serverStep kernelHelpers) Server.boot
        (markerRun [5, 6, 7, 116291])).conntrack_map.lookup clientKey = some val ∧
      val.hybrid_cookie = TS_START := by
  rw [lookup_run, flowTrace_markerRun]
  have hcookie : (run (flowStep clientKey.src_ip) none
      (.create (htonl 0x01010001) :: [5, 6, 7, 116291].flatMap fun seed =>
        [.other, .data seed])).map (·.hybrid_cookie) = some TS_START := by decide +kernel
  exact Option.map_eq_some_iff.mp hcookie

end edge_cookie
