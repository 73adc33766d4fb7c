-- The cookies of the entries over whole runs. An entry is made without a
-- cookie or with one, and a note beside the entry says which; from then on the
-- cookie of a noted entry is right in every state.
import EdgeCookie.ServerRun

namespace edge_cookie

open bytes headers server runs
open server_in (inView createVal initTables)
open server_en (enView rstVal synackVal ackVal)

/-! ## Entries with a note -/

/-- An entry, and the note that `server_in` has made a cookie for it. The note
is not in the code: the code takes `cur_hash_seed` for it. -/
structure Noted where
  entry : Option map_val_t
  made : Bool

def noteStep (n : Noted) : FlowEvent → Bool
  | .syn _ _ => true
  | .create _ => false
  | .data seed => n.made || n.entry.any fun val => val.cur_hash_seed != seed
  | _ => n.made

def notedStep (ip : U32) (n : Noted) (f : FlowEvent) : Noted :=
  ⟨flowStep ip n.entry f, noteStep n f⟩

/-- The entry of the flow `k` after the events, with its note. -/
def noted (K : Helpers) (k : map_key_t) (es : List Event) : Noted :=
  run (notedStep k.src_ip) ⟨none, false⟩ (flowTrace K k Server.boot es)

/-- A cookie was made for the entry of the flow `k`. -/
def cookieMade (K : Helpers) (k : map_key_t) (es : List Event) : Bool := (noted K k es).made

theorem noted_entry (K : Helpers) (k : map_key_t) (es : List Event) :
    (noted K k es).entry = (run (serverStep K) Server.boot es).conntrack_map.lookup k := by
  rw [lookup_run]
  refine run_related (fun (n : Noted) entry => n.entry = entry) (fun n entry f h => ?_) _ rfl
  subst h
  rfl

theorem noted_snoc (K : Helpers) (k : map_key_t) (es : List Event) (e : Event) :
    noted K k (es ++ [e]) =
      notedStep k.src_ip (noted K k es) (flowEvent k (run (serverStep K) Server.boot es) e) := by
  unfold noted flowTrace
  rw [trace_append, run_append]
  rfl

theorem noted_clientRun (seeds : List U32) :
    noted kernelHelpers clientKey (clientRun seeds) =
      run (notedStep clientKey.src_ip) ⟨none, false⟩
        (.create (htonl 2) :: seeds.flatMap fun seed => [.other, .data seed]) := by
  unfold noted
  rw [flowTrace_clientRun]

/-! ## The invariant -/

/-- The cookie of a noted entry is right; an entry without the note has none. -/
structure NotedOk (ip : U32) (n : Noted) : Prop where
  made : ∀ val, n.entry = some val → n.made = true → CookieOk ip val
  fresh : ∀ val, n.entry = some val → n.made = false →
    val.hybrid_cookie = 0 ∧ val.cur_hash_seed = 0

/-- A write of `server_en` keeps the invariant: it leaves the cookie alone. -/
theorem notedOk_map {ip : U32} {n : Noted} (h : NotedOk ip n) (g : map_val_t → map_val_t)
    (hg : ∀ val, SameCookie val (g val)) : NotedOk ip ⟨n.entry.map g, n.made⟩ := by
  constructor
  · intro val' hval' hm
    obtain ⟨val, hval, rfl⟩ := Option.map_eq_some_iff.mp hval'
    have hok := h.made val hval hm
    exact ⟨by rw [(hg val).hybrid, (hg val).hash]; exact hok.hash,
      by rw [(hg val).hybrid, (hg val).seed]; exact hok.map⟩
  · intro val' hval' hm
    obtain ⟨val, hval, rfl⟩ := Option.map_eq_some_iff.mp hval'
    rw [(hg val).hybrid, (hg val).seed]
    exact h.fresh val hval hm

/-- A data ACK keeps the invariant: a first cookie is right, and a later one
takes the hash bits from a right one. -/
theorem notedOk_data {ip : U32} {n : Noted} (h : NotedOk ip n) (seed : U32) :
    NotedOk ip (notedStep ip n (.data seed)) := by
  constructor
  · intro val' hval' hm
    obtain ⟨val, hval, rfl⟩ := Option.map_eq_some_iff.mp hval'
    by_cases hc : val.cur_hash_seed = seed
    · rw [refresh_same ip hc]
      refine h.made val hval ?_
      simpa [notedStep, noteStep, hval, hc] using hm
    by_cases h0 : val.cur_hash_seed = 0
    · rw [refresh_first ip (fun hs => hc (h0.trans hs.symm)) h0]
      exact cookieOk_first ip seed val
    · rw [refresh_next ip hc h0]
      refine cookieOk_next seed (h.made val hval ?_)
      -- An entry with a seed in it has the note.
      by_contra hn
      exact h0 (h.fresh val hval (Bool.eq_false_of_not_eq_true hn)).2
  · intro val' hval' hm
    obtain ⟨val, hval, rfl⟩ := Option.map_eq_some_iff.mp hval'
    simp only [notedStep, noteStep, hval, Option.any_some, Bool.or_eq_false_iff,
      bne_eq_false_iff_eq]
      at hm
    rw [refresh_same ip hm.2]
    exact h.fresh val hval hm.1

theorem notedOk_step {ip : U32} {n : Noted} (h : NotedOk ip n) (f : FlowEvent) :
    NotedOk ip (notedStep ip n f) := by
  cases f with
  | other => exact h
  | syn seed tsecr =>
    refine ⟨fun val hval _ => ?_, fun val _ hm => absurd hm Bool.true_eq_false_eq_False⟩
    obtain rfl := Option.some.inj hval
    exact cookieOk_first ip seed { hash_cookie := tsecr }
  | create ack_seq =>
    refine ⟨fun val _ hm => absurd hm Bool.false_ne_true, fun val hval _ => ?_⟩
    obtain rfl := Option.some.inj hval
    exact ⟨rfl, rfl⟩
  | data seed => exact notedOk_data h seed
  | synack seq tsval => exact notedOk_map h _ fun val => sameCookie_synackEntry val seq tsval
  | ack tsval => exact notedOk_map h _ fun val => sameCookie_ackVal val tsval

theorem notedOk_noted (K : Helpers) (k : map_key_t) (es : List Event) :
    NotedOk k.src_ip (noted K k es) := by
  refine run_invariant (NotedOk k.src_ip) _ (fun n f hn => notedOk_step hn f) ?_
  exact ⟨fun val hval _ => (nomatch hval), fun val hval _ => (nomatch hval)⟩

/-! ## What a cookie says -/

/-- In every state that the server agent reaches, the cookie of an entry with a
seed holds 14 bits of the folded SYN cookie and the map cookie that the gateway
computes under that seed. -/
theorem every_entry_with_a_seed_has_its_cookie (K : Helpers) (es : List Event) (k : map_key_t)
    (val : map_val_t) (hval : (run (serverStep K) Server.boot es).conntrack_map.lookup k = some val)
    (hseed : val.cur_hash_seed ≠ 0) :
    (ntohl val.hybrid_cookie).extractLsb' 16 14 = (fold16 val.hash_cookie).setWidth 14 ∧
      ∀ map_seeds : U16 → U32, map_seeds (seedKey k.src_ip) = val.cur_hash_seed →
        (ntohl val.hybrid_cookie).setWidth 16 =
          switch_agent.get_map_cookie_sip map_seeds k.src_ip := by
  rw [← noted_entry] at hval
  have hinv := notedOk_noted K k es
  have hmade : (noted K k es).made = true := by
    by_contra hn
    exact hseed (hinv.fresh val hval (Bool.eq_false_of_not_eq_true hn)).2
  have hok := hinv.made val hval hmade
  refine ⟨hok.hash, fun map_seeds hs => ?_⟩
  unfold switch_agent.get_map_cookie_sip
  rw [hs]
  exact hok.map

/-- The entry of the client has a seed and a cookie after its first data ACK. -/
theorem the_client_has_its_cookie :
    ∃ val,
      (run (serverStep kernelHelpers) Server.boot (clientRun [5])).conntrack_map.lookup clientKey =
        some val ∧ val.cur_hash_seed ≠ 0 ∧
      (ntohl val.hybrid_cookie).extractLsb' 16 14 = (fold16 val.hash_cookie).setWidth 14 := by
  have hsome : (noted kernelHelpers clientKey (clientRun [5])).entry.map (·.cur_hash_seed) =
      some 5 := by
    rw [noted_clientRun]
    decide
  obtain ⟨val, hval, hseed⟩ := Option.map_eq_some_iff.mp hsome
  have h0 : val.cur_hash_seed ≠ 0 := by
    rw [hseed]
    decide
  rw [noted_entry] at hval
  exact ⟨val, hval, h0,
    (every_entry_with_a_seed_has_its_cookie kernelHelpers _ clientKey val hval h0).1⟩

/-! ## Cookies as timestamps -/

/-- The first cookie of an entry is later than `TS_START`. A cookie that takes
the place of another one is later than it, when the seed in the entry is not 0.
A seed of 0 reads as "no cookie yet": the counter starts again at 1, and the
order is right only for some counters and map cookies. -/
theorem a_new_cookie_is_later_unless_the_seed_was_zero (K : Helpers) (es : List Event)
    (rnd : U32 × U32) (p : Pkt) (k : map_key_t) (val' : map_val_t)
    (hval' : (serverStep K (run (serverStep K) Server.boot es)
      (.ingress rnd p)).conntrack_map.lookup k = some val') :
    (∀ tcp ts, inView p = .syn tcp ts → inKey p tcp = k →
      (run (serverStep K) Server.boot es).conntrack_map.HasRoom k →
      0 < (ntohl val'.hybrid_cookie - 0x01010000#32).toInt) ∧
    (∀ tcp ts val, inView p = .data tcp ts → inKey p tcp = k →
      (run (serverStep K) Server.boot es).conntrack_map.lookup k = some val →
      val.cur_hash_seed ≠ seedAt (run (serverStep K) Server.boot es) k.src_ip →
      (cookieMade K k es = false → 0 < (ntohl val'.hybrid_cookie - 0x01010000#32).toInt) ∧
      (cookieMade K k es = true →
        (0 < (ntohl val'.hybrid_cookie - ntohl val.hybrid_cookie).toInt ↔
          val.cur_hash_seed ≠ 0 ∨ counter (ntohl val.hybrid_cookie) = 0 ∨
          (counter (ntohl val.hybrid_cookie) = 1 ∧ mapBits (ntohl val.hybrid_cookie) <
            mapCookie k.src_ip (seedAt (run (serverStep K) Server.boot es) k.src_ip)) ∨
          (counter (ntohl val.hybrid_cookie) = 3 ∧
            mapCookie k.src_ip (seedAt (run (serverStep K) Server.boot es) k.src_ip) <
              mapBits (ntohl val.hybrid_cookie))))) := by
  generalize hs : run (serverStep K) Server.boot es = s at *
  have hinv := notedOk_noted K k es
  have hentry := noted_entry K k es
  rw [hs] at hentry
  rw [lookup_step] at hval'
  constructor
  · intro tcp ts hview hkey hroom
    have hev : flowEvent k s (.ingress rnd p) = _ := inEvent_syn hview hkey hroom
    rw [hev] at hval'
    obtain rfl := Option.some.inj hval'
    rw [withCookie_hybrid]
    exact firstCookie_later _ _ _
  · intro tcp ts val hview hkey hval hnew
    have hev : flowEvent k s (.ingress rnd p) = _ := inEvent_data hview hkey
    rw [hev, hval] at hval'
    obtain rfl := Option.some.inj hval'
    rw [hval] at hentry
    by_cases h0 : val.cur_hash_seed = 0
    · rw [refresh_first _ (fun hz => hnew (h0.trans hz.symm)) h0, withCookie_hybrid]
      refine ⟨fun _ => firstCookie_later _ _ _, fun hm => ?_⟩
      rw [firstCookie_later_iff _ _ _ _ (hinv.made val hentry hm).hash]
      simp only [h0, ne_eq, not_true_eq_false, false_or]
    · rw [refresh_next _ hnew h0, withCookie_hybrid]
      refine ⟨fun hm => absurd (hinv.fresh val hentry hm).2 h0, fun _ => ?_⟩
      simp only [nextCookie_later, ne_eq, h0, not_false_eq_true, true_or]

/-- The run of the client up to the data ACK of the last seed. -/
def beforeLast (seeds : List U32) (last : U32) : List Event :=
  clientRun seeds ++ [.seed (seedKey clientKey.src_ip) last]

theorem clientRun_snoc (seeds : List U32) (last : U32) :
    clientRun (seeds ++ [last]) = beforeLast seeds last ++ [.ingress (0, 0) dataAck] := by
  simp [clientRun, beforeLast, reseed, List.flatMap_append]

theorem noted_beforeLast (seeds : List U32) (last : U32) :
    noted kernelHelpers clientKey (beforeLast seeds last) =
      noted kernelHelpers clientKey (clientRun seeds) := by
  unfold beforeLast
  rw [noted_snoc]
  rfl

theorem seedAt_beforeLast (seeds : List U32) (last : U32) :
    seedAt (run (serverStep kernelHelpers) Server.boot (beforeLast seeds last)) clientKey.src_ip =
      last := by
  have hinit : (run (serverStep kernelHelpers) Server.boot (clientRun seeds)).init = true := by
    rw [clientRun, run_cons]
    exact run_invariant (fun s : Server => s.init = true) _ (fun _ e => init_step e)
      (init_ingress _ _ _ handshakeAck)
  unfold beforeLast
  rw [run_append, run_cons, run_nil, seedAt_seed hinit]

/-- The entry of the client around the data ACK of the last seed. -/
theorem lookup_last (seeds : List U32) (last : U32) :
    (run (serverStep kernelHelpers) Server.boot (beforeLast seeds last)).conntrack_map.lookup
        clientKey = (noted kernelHelpers clientKey (clientRun seeds)).entry ∧
      (serverStep kernelHelpers (run (serverStep kernelHelpers) Server.boot (beforeLast seeds last))
        (.ingress (0, 0) dataAck)).conntrack_map.lookup clientKey =
        (noted kernelHelpers clientKey (clientRun (seeds ++ [last]))).entry := by
  constructor
  · rw [← noted_entry, noted_beforeLast]
  · rw [noted_entry, clientRun_snoc, run_append]
    rfl

/-- The seeds 5, 0 and 7: the counter goes from 2 back to 1, and the cookie is
an earlier timestamp than the one before. -/
theorem a_seed_of_zero_turns_the_cookie_back :
    ∃ val val',
      (run (serverStep kernelHelpers) Server.boot (beforeLast [5, 0] 7)).conntrack_map.lookup
        clientKey = some val ∧
      cookieMade kernelHelpers clientKey (beforeLast [5, 0] 7) = true ∧
      val.cur_hash_seed ≠
        seedAt (run (serverStep kernelHelpers) Server.boot (beforeLast [5, 0] 7)) clientKey.src_ip ∧
      (serverStep kernelHelpers (run (serverStep kernelHelpers) Server.boot (beforeLast [5, 0] 7))
        (.ingress (0, 0) dataAck)).conntrack_map.lookup clientKey = some val' ∧
      ¬ 0 < (ntohl val'.hybrid_cookie - ntohl val.hybrid_cookie).toInt := by
  obtain ⟨hold, hnew⟩ := lookup_last [5, 0] 7
  rw [hold, hnew, cookieMade, noted_beforeLast, seedAt_beforeLast, noted_clientRun, noted_clientRun]
  refine ⟨_, _, rfl, by decide +kernel, by decide +kernel, rfl, by decide +kernel⟩

/-- The seeds 5 and 7: the second cookie is the later one. -/
theorem the_second_cookie_of_the_client_is_later :
    ∃ val val', (run (serverStep kernelHelpers) Server.boot (beforeLast [5] 7)).conntrack_map.lookup
        clientKey = some val ∧
      (serverStep kernelHelpers (run (serverStep kernelHelpers) Server.boot (beforeLast [5] 7))
        (.ingress (0, 0) dataAck)).conntrack_map.lookup clientKey = some val' ∧
      0 < (ntohl val'.hybrid_cookie - ntohl val.hybrid_cookie).toInt := by
  obtain ⟨hold, hnew⟩ := lookup_last [5] 7
  have hseed : (noted kernelHelpers clientKey (clientRun [5])).entry.map (·.cur_hash_seed) =
      some 5 := by
    rw [noted_clientRun]
    decide
  obtain ⟨val, hval, hcur⟩ := Option.map_eq_some_iff.mp hseed
  have hsome : (noted kernelHelpers clientKey (clientRun ([5] ++ [7]))).entry.isSome := by
    rw [noted_clientRun]
    decide
  obtain ⟨val', hval'⟩ := Option.isSome_iff_exists.mp hsome
  have hlater :=
    (a_new_cookie_is_later_unless_the_seed_was_zero kernelHelpers (beforeLast [5] 7) (0, 0)
      dataAck clientKey val' (hnew.trans hval')).2 34 56 val inView_dataAck (by decide)
      (hold.trans hval) (by rw [seedAt_beforeLast, hcur]; decide)
  refine ⟨val, val', hold.trans hval, hnew.trans hval', (hlater.2 ?_).mpr (.inl ?_)⟩
  · rw [cookieMade, noted_beforeLast, noted_clientRun]
    decide
  · rw [hcur]
    decide

end edge_cookie
