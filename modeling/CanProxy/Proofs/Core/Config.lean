import CanProxy.Core.Config
import CanProxy.Proofs.Core.History

/-! What an accepted command line makes of the silence a plugin is allowed. -/

namespace CanProxy.Config

open Numeric

/-- The value is a positive number and nothing else. -/
def Positive (v : Text) : Prop :=
  (Scan.strtol (Text.cString v)).2 = [] ∧ 0 < (Scan.strtol (Text.cString v)).1

/-- The timeout that storing the value of an option leaves. -/
def timeoutAfter (before : UInt32) (opt : Opt) (v : Text) : UInt32 :=
  if opt = .pluginTimeoutMs then UInt32.ofInt (Scan.strtol (Text.cString v)).1 else before

/-- Storing a value gives an error with a text, or touches the timeout only for its own option. -/
theorem store_outcome (out : Config) (v : Text) (opt : Opt) :
    (∃ e, out.store v opt = .error e ∧ e ≠ []) ∨
    ∃ stored, out.store v opt = .ok stored ∧ (opt = .pluginTimeoutMs → Positive v) ∧
      stored.pluginTimeoutMs = timeoutAfter out.pluginTimeoutMs opt v := by
  -- Four options take any value; the others look at theirs first.
  cases opt with
  | contractIf | vehicleIf | plugin | pluginDir => exact .inr ⟨_, rfl, nofun, rfl⟩
  | pluginArg =>
    simp only [store]
    split
    · split
      · exact .inl ⟨_, rfl, nofun⟩
      · exact .inr ⟨_, rfl, nofun, rfl⟩
    · exact .inl ⟨_, rfl, nofun⟩
  | pluginTimeoutMs =>
    simp only [store]
    split
    · exact .inl ⟨_, rfl, nofun⟩
    next sound =>
      rw [not_or, not_not, not_le] at sound
      exact .inr ⟨_, rfl, fun _ => sound, rfl⟩
  | record =>
    simp only [store]
    split
    · exact .inl ⟨_, rfl, nofun⟩
    · exact .inr ⟨_, rfl, nofun, rfl⟩
  | logLevel =>
    simp only [store]
    split
    · exact .inr ⟨_, rfl, nofun, rfl⟩
    · exact .inl ⟨_, rfl, nofun⟩

/-- Behind the last argument nothing touches the timeout. -/
theorem finish_timeout (out : Config) : out.finish.1.pluginTimeoutMs = out.pluginTimeoutMs := by
  simp only [finish]
  -- The recorded path is added or not, and then each missing option is looked for.
  split <;> split <;> try split
  all_goals rfl

/-- The timeout that storing all values leaves, each of them replacing the one before. -/
def lastTimeout (before : UInt32) (pairs : List (Opt × Text)) : UInt32 :=
  pairs.foldl (fun before pair => timeoutAfter before pair.1 pair.2) before

/-- A loop that ends without an error took positive timeouts only, and left the last one. -/
theorem parseLoop_timeout {out cfg : Config} {taken : Bool} {args : List Text}
    (accepted : parseLoop out taken args = (cfg, [])) :
    (∀ pair ∈ given taken args, pair.1 = .pluginTimeoutMs → Positive pair.2) ∧
    cfg.pluginTimeoutMs = lastTimeout out.pluginTimeoutMs (given taken args) := by
  -- The induction follows the arguments; an option's value is stored before the next one is read.
  induction args generalizing out taken with
  | nil =>
    rw [parseLoop] at accepted
    rw [given]
    exact ⟨nofun, by rw [← finish_timeout out, accepted]; rfl⟩
  | cons arg rest ih =>
    cases taken with
    | true =>
      rw [parseLoop] at accepted
      rw [given]
      exact ih accepted
    | false =>
      rw [parseLoop] at accepted
      rw [given]
      split
      next help =>
        rw [if_pos help] at accepted
        cases accepted
        exact ⟨nofun, rfl⟩
      next plain =>
        rw [if_neg plain] at accepted
        split
        next opt v taken found =>
          -- An error would end the loop with its text, so the value was stored.
          obtain ⟨e, failed, told⟩ | ⟨stored, kept, sound, timeout⟩ := store_outcome out v opt
          · simp only [found, failed] at accepted
            cases accepted
            exact absurd rfl told
          · simp only [found, kept] at accepted
            obtain ⟨positive, left⟩ := ih accepted
            rw [timeout] at left
            exact ⟨List.forall_mem_cons.mpr ⟨sound, positive⟩, left⟩
        next unknown =>
          rw [unknown] at accepted
          cases accepted

/-- Only the values of its own option decide the timeout. -/
theorem lastTimeout_eq (before : UInt32) (pairs : List (Opt × Text)) :
    lastTimeout before pairs =
      (pairs.filterMap (valueFor .pluginTimeoutMs)).foldl
        (fun _ v => UInt32.ofInt (Scan.strtol (Text.cString v)).1) before := by
  induction pairs generalizing before with
  | nil => rfl
  | cons pair rest ih =>
    rw [lastTimeout, List.foldl_cons]
    by_cases own : pair.1 = .pluginTimeoutMs
    · rw [List.filterMap_cons, valueFor, if_pos own, timeoutAfter, if_pos own]
      exact ih _
    · rw [List.filterMap_cons, valueFor, if_neg own, timeoutAfter, if_neg own]
      exact ih _

/-- The low half of a number is its remainder. -/
theorem toNat_ofInt (n : ℤ) : ((UInt32.ofInt n).toNat : ℤ) = n % 2 ^ 32 := by
  rw [UInt32.ofInt, UInt32.toNat_ofNat']
  omega

/-- Every timeout that an accepted command line gives is a positive number. -/
theorem values_positive {env : Option Text} {args : List Text} {cfg : Config}
    (accepted : parse env args = (cfg, [])) : ∀ v ∈ valuesOf .pluginTimeoutMs args, Positive v := by
  intro v member
  obtain ⟨pair, listed, own⟩ := List.mem_filterMap.mp member
  unfold valueFor at own
  split at own
  next timeout =>
    cases own
    exact (parseLoop_timeout accepted).1 pair listed timeout
  next => cases own

/-- The daemon's publisher keeps the timeout of the command line through every run. -/
theorem publisher_timeout (cfg : Config) (m : Machine) (versionMajor versionMinor : UInt8) (t0 : ℤ)
    (calls : List Call) :
    (Proxy.after m ((cfg.publisher versionMajor versionMinor).arm t0) calls).publisher.timeout =
      (cfg.pluginTimeoutMs.toNat : ℤ) * 1000000 :=
  (Proxy.after_store m _ calls).2

/-- The value is a positive number, and exactly so many milliseconds are what every run compares with. -/
def TimeoutExact (cfg : Config) (v : Text) : Prop :=
  ∃ n : ℤ, Scan.strtol (Text.cString v) = (n, []) ∧ 0 < n ∧
    ∀ (m : Machine) (versionMajor versionMinor : UInt8) (t0 : ℤ) (calls : List Call),
      (Proxy.after m ((cfg.publisher versionMajor versionMinor).arm t0) calls).publisher.timeout =
        n * 1000000

/-- The last timeout of an accepted command line is the publisher's exactly when it fits its field. -/
theorem timeout_exact_iff {env : Option Text} {args earlier : List Text} {cfg : Config} {v : Text}
    (accepted : parse env args = (cfg, []))
    (last : valuesOf .pluginTimeoutMs args = earlier ++ [v]) :
    TimeoutExact cfg v ↔ (Scan.strtol (Text.cString v)).1 < 2 ^ 32 := by
  obtain ⟨whole, positive⟩ := values_positive accepted v (by rw [last]; simp)
  -- Of all values the last one stays, and of it the low half.
  have low : (cfg.pluginTimeoutMs.toNat : ℤ) = (Scan.strtol (Text.cString v)).1 % 2 ^ 32 := by
    have left := (parseLoop_timeout accepted).2
    rw [lastTimeout_eq] at left
    unfold valuesOf at last
    rw [left, last, List.foldl_append, List.foldl_cons, List.foldl_nil, toNat_ofInt]
  constructor
  · rintro ⟨n, read, -, exact⟩
    have kept := exact Machine.indefinite 0 0 0 []
    rw [publisher_timeout, low, read] at kept
    rw [read]
    dsimp only at kept ⊢
    omega
  · intro fits
    refine ⟨_, Prod.ext rfl whole, positive, ?_⟩
    intro m versionMajor versionMinor t0 calls
    rw [publisher_timeout, low, Int.emod_eq_of_lt positive.le fits]

/-- A quarter of a second is kept as it is. -/
theorem timeout_exact_iff_short :
    let args := ["--contract-if=vcan0", "--plugin", "sim", "--plugin-timeout-ms=250"].map String.toList
    TimeoutExact (parse none args).1 "250".toList :=
  (timeout_exact_iff (Prod.ext rfl (by decide)) (show _ = [] ++ ["250".toList] by decide)).mpr (by decide)

/-- One above the largest value of its field, a timeout is accepted and becomes none at all. -/
theorem timeout_vanishes :
    let args := ["--contract-if=vcan0", "--plugin=sim", "--plugin-timeout-ms=4294967296"].map String.toList
    (parse none args).2 = [] ∧
    valuesOf .pluginTimeoutMs args = ["4294967296".toList] ∧
    (parse none args).1.pluginTimeoutMs = 0 ∧
    ¬TimeoutExact (parse none args).1 "4294967296".toList := by
  have vanished : (parse none (["--contract-if=vcan0", "--plugin=sim",
      "--plugin-timeout-ms=4294967296"].map String.toList)).1.pluginTimeoutMs = 0 := by decide
  refine ⟨by decide, by decide, vanished, ?_⟩
  rintro ⟨n, -, positive, exact⟩
  have kept := exact Machine.indefinite 0 0 0 []
  rw [publisher_timeout, vanished] at kept
  simp only [UInt32.toNat_zero] at kept
  omega

end CanProxy.Config
