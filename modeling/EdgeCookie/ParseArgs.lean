-- The command line of the forwarding library. `xsknf_parse_args` takes the
-- options one by one, as the C library gives them, and checks a few of them.
-- The configuration that it returns is one that the program can index with
-- just when the options themselves keep to the bounds that it does not check.
import EdgeCookie.Bytes
import EdgeCookie.Runs

namespace edge_cookie.args

open bytes runs

/-! ## The configuration -/

def XSKNF_MAX_INTERFACES : Nat := 32

/-- The slots of `flows`, `sa_opts` and `sa_apache_opts` in the agents, one for each worker. -/
def WORKER_SLOTS : Nat := 16

/-- What the 8-bit counters of a batch can count. -/
def BATCH_COUNTERS : Nat := 255

def XDP_COPY : U32 := 2
def XDP_ZEROCOPY : U32 := 4
def XDP_USE_NEED_WAKEUP : U32 := 8
def DEFAULT_BIND_FLAGS : U32 := XDP_USE_NEED_WAKEUP
def XDP_FLAGS_UPDATE_IF_NOEXIST : U32 := 1
def XDP_FLAGS_SKB_MODE : U32 := 2
def XDP_FLAGS_DRV_MODE : U32 := 4
def MODE_AF_XDP : U32 := 1
def MODE_XDP : U32 := 2
def MODE_COMBINED : U32 := MODE_AF_XDP ||| MODE_XDP

/-- The arrays have `XSKNF_MAX_INTERFACES` entries. The names of the programs are left out. -/
structure xsknf_config where
  interfaces : Nat → List Char
  bind_flags : Nat → U32
  num_interfaces : Nat
  workers : U32
  working_mode : U32
  xdp_flags : U32
  batch_size : U32
  poll : Bool
  unaligned_chunks : Bool
  xsk_frame_size : U32
  busy_poll : Bool

def default_conf : xsknf_config where
  interfaces _ := []
  bind_flags _ := 0
  num_interfaces := 0
  workers := 1
  working_mode := MODE_AF_XDP
  xdp_flags := XDP_FLAGS_UPDATE_IF_NOEXIST
  batch_size := 64
  poll := false
  unaligned_chunks := false
  xsk_frame_size := 4096
  busy_poll := false

/-! ## The options -/

/-- What `getopt_long` gives: an option with its argument, or something else
that it does not know. -/
inductive Opt where
  | iface (optarg : List Char)
  | poll
  | xdp_skb
  | unaligned
  | frame_size (optarg : List Char)
  | batch_size (optarg : List Char)
  | busy_poll
  | mode (optarg : List Char)
  | workers (optarg : List Char)
  | unknown

/-- How the parser ends: it returns, it shows the usage and exits, or it writes behind the end of
`interfaces` or `bind_flags`. -/
inductive Outcome where
  | returned (config : xsknf_config)
  | exited
  | outOfBounds

/-- The flags of an interface, from the letter behind a colon. Any other letter ends the program. -/
def copyMode (optarg : List Char) : Option U32 :=
  match optarg.dropWhile (· ≠ ':') with
  | [] => some DEFAULT_BIND_FLAGS
  | _ :: 'c' :: _ => some (DEFAULT_BIND_FLAGS ||| XDP_COPY)
  | _ :: 'z' :: _ => some (DEFAULT_BIND_FLAGS ||| XDP_ZEROCOPY)
  | _ => none

def workingMode (optarg : List Char) : Option U32 :=
  if optarg = "AF_XDP".toList then some MODE_AF_XDP
  else if optarg = "XDP".toList then some MODE_XDP
  else if optarg = "COMBINED".toList then some MODE_COMBINED
  else none

/-- The interface takes the next place of the two arrays, and its name ends at the colon. -/
def addInterface (config : xsknf_config) (optarg : List Char) (flags : U32) : xsknf_config :=
  { config with
    bind_flags := Function.update config.bind_flags config.num_interfaces flags
    interfaces :=
      Function.update config.interfaces config.num_interfaces (optarg.takeWhile (· ≠ ':'))
    num_interfaces := config.num_interfaces + 1 }

section

variable (atoi : List Char → U32)

/-- One turn of the loop. The first write of an interface comes before its copy mode is checked. -/
def parseOpt (config : xsknf_config) : Opt → Outcome
  | .iface optarg =>
    if XSKNF_MAX_INTERFACES ≤ config.num_interfaces then .outOfBounds
    else
      match copyMode optarg with
      | some flags => .returned (addInterface config optarg flags)
      | none => .exited
  | .poll => .returned { config with poll := true }
  | .xdp_skb => .returned { config with xdp_flags := config.xdp_flags ||| XDP_FLAGS_SKB_MODE }
  | .unaligned => .returned { config with unaligned_chunks := true }
  | .frame_size optarg => .returned { config with xsk_frame_size := atoi optarg }
  | .batch_size optarg => .returned { config with batch_size := atoi optarg }
  | .busy_poll => .returned { config with busy_poll := true }
  | .mode optarg =>
    match workingMode optarg with
    | some mode => .returned { config with working_mode := mode }
    | none => .exited
  | .workers optarg =>
    if (atoi optarg).toNat < 1 then .exited else .returned { config with workers := atoi optarg }
  | .unknown => .exited

def parseLoop (config : xsknf_config) : List Opt → Outcome
  | [] => .returned config
  | opt :: opts =>
    match parseOpt atoi config opt with
    | .returned config => parseLoop config opts
    | .exited => .exited
    | .outOfBounds => .outOfBounds

/-- The test of the frame size, which is an `int`. -/
def sizeRefused (config : xsknf_config) : Bool :=
  config.xsk_frame_size &&& (config.xsk_frame_size - 1) ≠ 0 && !config.unaligned_chunks

/-- What is behind the loop. -/
def finish (config : xsknf_config) : Outcome :=
  if config.num_interfaces = 0 then .exited
  else
    let config :=
      if config.xdp_flags &&& XDP_FLAGS_SKB_MODE = 0 then
        { config with xdp_flags := config.xdp_flags ||| XDP_FLAGS_DRV_MODE }
      else config
    if sizeRefused config then .exited else .returned config

def xsknf_parse_args (opts : List Opt) : Outcome :=
  match parseLoop atoi default_conf opts with
  | .returned config => finish config
  | outcome => outcome

end

/-! ## What the program needs -/

/-- The rest of the program can index with the configuration. -/
structure Indexable (config : xsknf_config) : Prop where
  interfaces : 1 ≤ config.num_interfaces ∧ config.num_interfaces ≤ XSKNF_MAX_INTERFACES
  workers : 1 ≤ config.workers.toNat ∧ config.workers.toNat ≤ WORKER_SLOTS
  batch : 1 ≤ config.batch_size.toNat ∧ config.batch_size.toNat ≤ BATCH_COUNTERS
  frame : ∃ k < 31, config.xsk_frame_size.toNat = 2 ^ k

/-- No write is out of bounds, and a configuration that is returned is one to index with. -/
def Outcome.Valid : Outcome → Prop
  | .returned config => Indexable config
  | .exited => True
  | .outOfBounds => False

/-! ## What the options say -/

def Opt.isIface : Opt → Bool
  | .iface _ => true
  | _ => false

def Opt.isUnaligned : Opt → Bool
  | .unaligned => true
  | _ => false

section

variable (atoi : List Char → U32)

/-- The parser shows the usage and exits at this option. -/
def Opt.stops : Opt → Bool
  | .iface optarg => (copyMode optarg).isNone
  | .mode optarg => (workingMode optarg).isNone
  | .workers optarg => (atoi optarg).toNat < 1
  | .unknown => true
  | _ => false

/-- The options that the loop gets to. -/
def reached : List Opt → List Opt
  | [] => []
  | opt :: opts => if opt.stops atoi then [opt] else opt :: reached opts

def Opt.workersArg : Opt → Option U32
  | .workers optarg => some (atoi optarg)
  | _ => none

def Opt.batchArg : Opt → Option U32
  | .batch_size optarg => some (atoi optarg)
  | _ => none

def Opt.frameArg : Opt → Option U32
  | .frame_size optarg => some (atoi optarg)
  | _ => none

/-- The number of the last option of a kind, or the default. -/
def lastArg (arg : Opt → Option U32) (default : U32) (opts : List Opt) : U32 :=
  (opts.filterMap arg).getLast?.getD default

def frameOf (opts : List Opt) : U32 := lastArg (Opt.frameArg atoi) 4096 opts
def workersOf (opts : List Opt) : U32 := lastArg (Opt.workersArg atoi) 1 opts
def batchOf (opts : List Opt) : U32 := lastArg (Opt.batchArg atoi) 64 opts

/-- The parser finds nothing to complain about. -/
structure Accepted (opts : List Opt) : Prop where
  known : opts.any (Opt.stops atoi) = false
  interfaces : 1 ≤ opts.countP Opt.isIface
  frame : frameOf atoi opts &&& (frameOf atoi opts - 1) = 0 ∨ opts.any Opt.isUnaligned = true

/-! ## The loop -/

/-- What an option does when the parser goes on. -/
def apply (config : xsknf_config) : Opt → xsknf_config
  | .iface optarg => addInterface config optarg ((copyMode optarg).getD 0)
  | .poll => { config with poll := true }
  | .xdp_skb => { config with xdp_flags := config.xdp_flags ||| XDP_FLAGS_SKB_MODE }
  | .unaligned => { config with unaligned_chunks := true }
  | .frame_size optarg => { config with xsk_frame_size := atoi optarg }
  | .batch_size optarg => { config with batch_size := atoi optarg }
  | .busy_poll => { config with busy_poll := true }
  | .mode optarg => { config with working_mode := (workingMode optarg).getD 0 }
  | .workers optarg => { config with workers := atoi optarg }
  | .unknown => config

variable {atoi}

theorem parseOpt_eq (config : xsknf_config) (opt : Opt) :
    parseOpt atoi config opt =
      if opt.isIface = true ∧ XSKNF_MAX_INTERFACES ≤ config.num_interfaces then .outOfBounds
      else if opt.stops atoi then .exited else .returned (apply atoi config opt) := by
  cases opt with
  | iface optarg =>
    rcases hmode : copyMode optarg with _ | flags
    · simp [parseOpt, Opt.isIface, Opt.stops, hmode]
    · simp [parseOpt, Opt.isIface, Opt.stops, apply, hmode]
  | mode optarg =>
    rcases hmode : workingMode optarg with _ | mode
    · simp [parseOpt, Opt.isIface, Opt.stops, hmode]
    · simp [parseOpt, Opt.isIface, Opt.stops, apply, hmode]
  | workers optarg => simp [parseOpt, Opt.isIface, Opt.stops, apply]
  | poll => rfl
  | xdp_skb => rfl
  | unaligned => rfl
  | frame_size optarg => rfl
  | batch_size optarg => rfl
  | busy_poll => rfl
  | unknown => rfl

theorem num_apply (config : xsknf_config) (opt : Opt) :
    (apply atoi config opt).num_interfaces = config.num_interfaces + if opt.isIface then 1
    else 0 := by
  cases opt <;> rfl

/-- The loop goes through the options that it gets to: it writes out of bounds
at the 33rd interface, and exits at an option that it refuses. -/
theorem parseLoop_eq (opts : List Opt) {config : xsknf_config}
    (h : config.num_interfaces ≤ XSKNF_MAX_INTERFACES) :
    parseLoop atoi config opts =
      if XSKNF_MAX_INTERFACES < config.num_interfaces + (reached atoi opts).countP Opt.isIface then
      .outOfBounds
      else if opts.any (Opt.stops atoi) then .exited
      else .returned (run (apply atoi) config opts) := by
  induction opts generalizing config with
  | nil =>
    rw [reached, List.countP_nil, Nat.add_zero, if_neg (Nat.not_lt.mpr h)]
    rfl
  | cons opt opts ih =>
    rw [parseLoop, parseOpt_eq]
    by_cases hfull : opt.isIface = true ∧ XSKNF_MAX_INTERFACES ≤ config.num_interfaces
    · have hcount : 1 ≤ (reached atoi (opt :: opts)).countP Opt.isIface := by
        rw [reached]
        split <;> simp [hfull.1]
      rw [if_pos hfull, if_pos (by omega)]
    · rw [if_neg hfull]
      have hroom : config.num_interfaces + (if opt.isIface then 1 else 0) ≤
          XSKNF_MAX_INTERFACES := by
        split
        · rename_i hiface
          have hlt : ¬ XSKNF_MAX_INTERFACES ≤ config.num_interfaces :=
            fun hle => hfull ⟨hiface, hle⟩
          omega
        · exact h
      by_cases hstop : opt.stops atoi = true
      · rw [if_pos hstop, reached, if_pos hstop, List.countP_singleton, if_neg (by omega),
          List.any_cons, hstop]
        rfl
      · rw [if_neg hstop]
        dsimp only
        rw [ih (by rw [num_apply]; exact hroom), num_apply, reached, if_neg hstop, List.countP_cons,
          List.any_cons, Bool.eq_false_iff.mpr hstop, Bool.false_or, run_cons, Nat.add_assoc,
          Nat.add_comm (List.countP _ _)]

/-! ## The configuration behind the loop -/

theorem num_run (config : xsknf_config) (opts : List Opt) :
    (run (apply atoi) config opts).num_interfaces =
      config.num_interfaces + opts.countP Opt.isIface := by
  induction opts generalizing config with
  | nil => rfl
  | cons opt opts ih =>
    rw [run_cons, ih, num_apply, List.countP_cons, Nat.add_assoc, Nat.add_comm (List.countP _ _)]

theorem unaligned_run (config : xsknf_config) (opts : List Opt) :
    (run (apply atoi) config opts).unaligned_chunks =
      (config.unaligned_chunks || opts.any Opt.isUnaligned) := by
  induction opts generalizing config with
  | nil => rw [run_nil, List.any_nil, Bool.or_false]
  | cons opt opts ih =>
    have hopt : (apply atoi config opt).unaligned_chunks =
        (config.unaligned_chunks || opt.isUnaligned) := by
      cases opt <;> simp [apply, addInterface, Opt.isUnaligned]
    rw [run_cons, ih, hopt, List.any_cons, Bool.or_assoc]

/-- A number that one kind of option writes is that of the last such option. -/
theorem arg_run {get : xsknf_config → U32} {arg : Opt → Option U32} (config : xsknf_config)
    (opts : List Opt)
    (h : ∀ config opt, get (apply atoi config opt) = (arg opt).getD (get config)) :
    get (run (apply atoi) config opts) = lastArg arg (get config) opts := by
  have hstep : ∀ c opt (o : Option U32), get c = o.getD (get config) →
      get (apply atoi c opt) = ((arg opt).or o).getD (get config) := by
    intro c opt o hc
    rw [h, hc]
    rcases arg opt with _ | x <;> rfl
  have hlast : get (run (apply atoi) config opts) =
      ((opts.filterMap arg).getLast?.or none).getD (get config) :=
    run_written (fun o c => get c = o.getD (get config)) arg hstep rfl
  rw [Option.or_none] at hlast
  exact hlast

/-- The flags are of no account for the indices. -/
theorem indexable_flags (config : xsknf_config) (flags : U32) :
    Indexable { config with xdp_flags := flags } ↔ Indexable config := by
  constructor
  · rintro ⟨hinterfaces, hworkers, hbatch, hframe⟩
    exact ⟨hinterfaces, hworkers, hbatch, hframe⟩
  · rintro ⟨hinterfaces, hworkers, hbatch, hframe⟩
    exact ⟨hinterfaces, hworkers, hbatch, hframe⟩

theorem finish_valid_iff (config : xsknf_config) :
    (finish config).Valid ↔
    (config.num_interfaces ≠ 0 → sizeRefused config = false → Indexable config) := by
  unfold finish
  by_cases hzero : config.num_interfaces = 0
  · rw [if_pos hzero]
    exact iff_of_true trivial fun h => absurd hzero h
  · rw [if_neg hzero]
    dsimp only
    have hflags : ∀ flags, (if sizeRefused { config with xdp_flags := flags } then Outcome.exited
        else .returned { config with xdp_flags := flags }).Valid ↔
          (config.num_interfaces ≠ 0 → sizeRefused config = false → Indexable config) := by
      intro flags
      have hsize : sizeRefused { config with xdp_flags := flags } = sizeRefused config := rfl
      rw [hsize]
      rcases sizeRefused config with _ | _
      · exact (indexable_flags config flags).trans ⟨fun h _ _ => h, fun h => h hzero rfl⟩
      · exact iff_of_true trivial fun _ h => absurd h (by decide)
    split
    · exact hflags _
    · exact hflags config.xdp_flags

theorem sizeRefused_run (opts : List Opt) :
    sizeRefused (run (apply atoi) default_conf opts) = false ↔
      frameOf atoi opts &&& (frameOf atoi opts - 1) = 0 ∨ opts.any Opt.isUnaligned = true := by
  have hframe : (run (apply atoi) default_conf opts).xsk_frame_size = frameOf atoi opts :=
    arg_run default_conf opts fun config opt => by cases opt <;> rfl
  unfold sizeRefused
  rw [hframe, unaligned_run, default_conf, Bool.false_or]
  rcases opts.any Opt.isUnaligned with _ | _ <;> simp

/-- The numbers of the options that the parser does not check. -/
structure KeepsBounds (atoi : List Char → U32) (opts : List Opt) : Prop where
  workers : (workersOf atoi opts).toNat ≤ WORKER_SLOTS
  batch : 1 ≤ (batchOf atoi opts).toNat ∧ (batchOf atoi opts).toNat ≤ BATCH_COUNTERS
  frame : ∃ k < 31, (frameOf atoi opts).toNat = 2 ^ k

theorem reached_eq {opts : List Opt} (h : opts.any (Opt.stops atoi) = false) :
    reached atoi opts = opts := by
  induction opts with
  | nil => rfl
  | cons opt opts ih =>
    rw [List.any_cons, Bool.or_eq_false_iff] at h
    rw [reached, if_neg (Bool.eq_false_iff.mp h.1), ih h.2]

/-- A number of workers that the parser goes on with is not 0. -/
theorem one_le_workersOf {opts : List Opt} (h : opts.any (Opt.stops atoi) = false) :
    1 ≤ (workersOf atoi opts).toNat := by
  unfold workersOf lastArg
  rcases hlast : (opts.filterMap (Opt.workersArg atoi)).getLast? with _ | x
  · exact Nat.le_refl 1
  · obtain ⟨opt, hmem, harg⟩ := List.mem_filterMap.mp (List.mem_of_getLast? hlast)
    have hgo := List.any_eq_false.mp h opt hmem
    cases opt with
    | workers optarg =>
      obtain rfl := Option.some.inj harg
      simpa [Opt.stops, Nat.one_le_iff_ne_zero] using hgo
    | _ => cases harg

end

/-- The command line is safe just when the loop gets to no more than 32
interfaces, and the numbers that the parser accepts without a check keep to
their bounds: at most 16 workers, a batch of 1 to 255 packets, and a frame size
that is a power of two and neither 0 nor negative. -/
theorem arguments_are_valid_iff (atoi : List Char → U32) (opts : List Opt) :
    (xsknf_parse_args atoi opts).Valid ↔
      (reached atoi opts).countP Opt.isIface ≤ XSKNF_MAX_INTERFACES ∧
        (Accepted atoi opts → KeepsBounds atoi opts) := by
  unfold xsknf_parse_args
  rw [parseLoop_eq opts (Nat.zero_le _), default_conf, Nat.zero_add, ← default_conf]
  by_cases hmany : XSKNF_MAX_INTERFACES < (reached atoi opts).countP Opt.isIface
  · rw [if_pos hmany]
    exact iff_of_false (fun h => h) fun h => absurd h.1 (Nat.not_le.mpr hmany)
  rw [if_neg hmany]
  rcases hstop : opts.any (Opt.stops atoi) with _ | _
  · have hnum : (run (apply atoi) default_conf opts).num_interfaces = opts.countP Opt.isIface :=
      (num_run default_conf opts).trans (Nat.zero_add _)
    have hworkers : (run (apply atoi) default_conf opts).workers = workersOf atoi opts :=
      arg_run default_conf opts fun config opt => by cases opt <;> rfl
    have hbatch : (run (apply atoi) default_conf opts).batch_size = batchOf atoi opts :=
      arg_run default_conf opts fun config opt => by cases opt <;> rfl
    have hframe : (run (apply atoi) default_conf opts).xsk_frame_size = frameOf atoi opts :=
      arg_run default_conf opts fun config opt => by cases opt <;> rfl
    rw [reached_eq hstop] at hmany ⊢
    rw [if_neg Bool.false_ne_true]
    dsimp only
    rw [finish_valid_iff, sizeRefused_run, hnum]
    constructor
    · intro h
      refine ⟨Nat.not_lt.mp hmany, fun hacc => ?_⟩
      obtain ⟨-, hw, hb, hf⟩ := h (Nat.one_le_iff_ne_zero.mp hacc.interfaces) hacc.frame
      rw [hworkers] at hw
      rw [hbatch] at hb
      rw [hframe] at hf
      exact ⟨hw.2, hb, hf⟩
    · rintro ⟨-, h⟩ hsome hsize
      obtain ⟨hw, hb, hf⟩ := h ⟨hstop, Nat.one_le_iff_ne_zero.mpr hsome, hsize⟩
      refine ⟨?_, ?_, ?_, ?_⟩
      · rw [hnum]
        exact ⟨Nat.one_le_iff_ne_zero.mpr hsome, Nat.not_lt.mp hmany⟩
      · rw [hworkers]
        exact ⟨one_le_workersOf hstop, hw⟩
      · rw [hbatch]
        exact hb
      · rw [hframe]
        exact hf
  · refine iff_of_true trivial ⟨Nat.not_lt.mp hmany, fun h => ?_⟩
    rw [h.known] at hstop
    cases hstop

/-- What each of the four gaps lets through: 33 interfaces, 17 workers, batches
of 256 packets, and frames of no bytes. -/
theorem the_parser_has_four_gaps :
    ¬ (xsknf_parse_args (fun _ => 0) (List.replicate 33 (.iface ['e']))).Valid ∧
      ¬ (xsknf_parse_args (fun _ => 17) [.iface ['e'], .workers ['1', '7']]).Valid ∧
      ¬ (xsknf_parse_args (fun _ => 256) [.iface ['e'], .batch_size ['2', '5', '6']]).Valid ∧
      ¬ (xsknf_parse_args (fun _ => 0) [.iface ['e'], .frame_size ['0']]).Valid := by
  refine ⟨fun h => h, fun h => ?_, fun h => ?_, fun h => ?_⟩
  · exact absurd h.workers.2 (by decide)
  · exact absurd h.batch.2 (by decide)
  · obtain ⟨k, -, hk⟩ := h.frame
    exact absurd hk (Nat.ne_of_lt (Nat.two_pow_pos k))

end edge_cookie.args
