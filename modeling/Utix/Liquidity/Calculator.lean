import Mathlib.Tactic.Linarith

/-!
# The liquidity pool calculator

`features/liquidity-pool-calculator/lib`: what a deposit mints and takes, and what shares give back,
in whole stroops. All divisions round down. So a depositor gets back what was taken
(`calculator_consistent`), and what rounding saves the depositor is missing from what backs the
shares of the others (`backed_iff`).

The amounts of a request go through `positiveAmount` before anything is fetched: they are positive
and fit into an int64. The reserves and the shares of the pool are read without that bound, and so
are the shares that a deposit mints. A deposit may therefore answer with more shares than a
withdrawal accepts (`minted_refused`), and the law of a deposit says which of the two it is.

The first deposit mints the integer square root of the product of the amounts. The source finds it
by a binary search, `squareRootLoop`, and `isGreatest_squareRootFloor` is its specification.

Prices, slippage bounds and texts are computed from these amounts and left out, and so is the
reading of texts as amounts.
-/

namespace Utix.Liquidity

/-! ### The calculator -/

/-- The loop of `squareRootFloor`. -/
def squareRootLoop (value low high : ℕ) : ℕ :=
  if low ≤ high then
    let mid := (low + high) / 2
    if mid * mid ≤ value then squareRootLoop value (mid + 1) high
    else squareRootLoop value low (mid - 1)
  else high
termination_by high + 1 - low
decreasing_by
  · omega
  · have hpos : mid ≠ 0 := fun h ↦ by simp [h] at *
    omega

def squareRootFloor (value : ℕ) : ℕ := if value < 2 then value else squareRootLoop value 1 value

inductive CalculatorErrorCode
  | requestFailed
  | invalidAmount
  | insufficientShares

/-- The reserves and shares of a pool. -/
structure Pool where
  reserveA : ℕ
  reserveB : ℕ
  totalShares : ℕ

/-- A pool has no shares exactly when an asset is missing. -/
def Pool.consistent (pool : Pool) : Prop :=
  pool.reserveA = 0 ∨ pool.reserveB = 0 ↔ pool.totalShares = 0

instance (pool : Pool) : Decidable pool.consistent := inferInstanceAs (Decidable (_ ↔ _))

/-- What a deposit takes of each asset, and the shares it mints. -/
structure Deposit where
  consumedA : ℕ
  consumedB : ℕ
  minted : ℕ

/-- What a withdrawal gives of each asset. -/
structure Withdrawal where
  withdrawnA : ℕ
  withdrawnB : ℕ

/-- `INT64_MAX` -/
def int64Max : ℕ := 9223372036854775807

/-- `positiveAmount(value)`, of the stroops that a text denotes. -/
def positiveAmount (stroops : ℕ) : Prop := 0 < stroops ∧ stroops ≤ int64Max

instance (stroops : ℕ) : Decidable (positiveAmount stroops) := inferInstanceAs (Decidable (_ ∧ _))

/-- `runLiquidityPoolCalculator`, asked for a deposit. The amounts are checked before the pool is
fetched. -/
def deposit (pool : Pool) (amountA amountB : ℕ) : Except CalculatorErrorCode Deposit :=
  if ¬ positiveAmount amountA ∨ ¬ positiveAmount amountB then .error .invalidAmount
  else if ¬ pool.consistent then .error .requestFailed
  else if pool.reserveA = 0 ∧ pool.reserveB = 0 ∧ pool.totalShares = 0 then
    let minted := squareRootFloor (amountA * amountB)
    if minted = 0 then .error .invalidAmount else .ok ⟨amountA, amountB, minted⟩
  -- a division by zero is thrown
  else if pool.reserveA = 0 ∨ pool.reserveB = 0 then .error .requestFailed
  else
    let mintedByA := amountA * pool.totalShares / pool.reserveA
    let mintedByB := amountB * pool.totalShares / pool.reserveB
    let minted := if mintedByA < mintedByB then mintedByA else mintedByB
    if minted = 0 then .error .invalidAmount
    else .ok ⟨minted * pool.reserveA / pool.totalShares, minted * pool.reserveB / pool.totalShares,
      minted⟩

/-- `runLiquidityPoolCalculator`, asked for a withdrawal. -/
def withdraw (pool : Pool) (shares : ℕ) : Except CalculatorErrorCode Withdrawal :=
  if ¬ positiveAmount shares then .error .invalidAmount
  else if ¬ pool.consistent then .error .requestFailed
  else if pool.totalShares < shares then .error .insufficientShares
  else .ok ⟨pool.reserveA * shares / pool.totalShares, pool.reserveB * shares / pool.totalShares⟩

/-! ### Rounding -/

section

variable {r t m s₁ s₂ : ℕ}

/-- What is taken for the shares is what they give back. -/
theorem withdrawn_of_minted (ht : 0 < t) : (r + m * r / t) * m / (t + m) = m * r / t := by
  have hmod := Nat.div_add_mod (m * r) t
  have hlt := Nat.mod_lt (m * r) ht
  generalize m * r / t = c, m * r % t = rest at *
  refine Nat.div_eq_of_lt_le ?_ ?_ <;> nlinarith

/-- **Two withdrawals in a row** give what one gives, or one stroop less. -/
theorem withdrawn_twice (hs : 0 < s₂) (ht : s₁ + s₂ ≤ t) :
    r * s₁ / t + (r - r * s₁ / t) * s₂ / (t - s₁) ≤ r * (s₁ + s₂) / t ∧
      r * (s₁ + s₂) / t ≤ r * s₁ / t + (r - r * s₁ / t) * s₂ / (t - s₁) + 1 := by
  obtain ⟨u, rfl⟩ : ∃ u, t = s₁ + u := ⟨t - s₁, by omega⟩
  have hu : 0 < u := by omega
  have hfirst := Nat.div_add_mod (r * s₁) (s₁ + u)
  have hrest := Nat.mod_lt (r * s₁) (show 0 < s₁ + u by omega)
  have hle : r * s₁ / (s₁ + u) ≤ r :=
    Nat.div_le_of_le_mul (by nlinarith)
  generalize r * s₁ / (s₁ + u) = w, r * s₁ % (s₁ + u) = rest at *
  obtain ⟨q, rfl⟩ : ∃ q, r = w + q := ⟨r - w, by omega⟩
  rw [Nat.add_sub_cancel_left, Nat.add_sub_cancel_left]
  have hsecond := Nat.div_add_mod (q * s₂) u
  have hrest' := Nat.mod_lt (q * s₂) hu
  generalize q * s₂ / u = v, q * s₂ % u = rest' at *
  have hqs : u * w + rest = q * s₁ := by nlinarith
  -- the two remainders bound how far the quotients are from the ratio of the shares
  have hupper : v * s₁ ≤ w * s₂ + rest := Nat.le_of_mul_le_mul_left (by nlinarith) hu
  have hlower : w * s₂ ≤ (v + 1) * s₁ := Nat.le_of_mul_le_mul_left (by nlinarith) hu
  constructor
  · rw [Nat.le_div_iff_mul_le (by omega)]
    nlinarith
  · refine Nat.le_of_lt_succ ((Nat.div_lt_iff_lt_mul (by omega)).2 ?_)
    nlinarith

end

/-- The invariant of the search: the root is not below `low - 1` and not above `high`. -/
theorem squareRootLoop_spec {value low high : ℕ} (hpos : 0 < low)
    (hlow : (low - 1) * (low - 1) ≤ value) (hhigh : value < (high + 1) * (high + 1))
    (hle : low ≤ high + 1) :
    squareRootLoop value low high * squareRootLoop value low high ≤ value ∧
      value < (squareRootLoop value low high + 1) * (squareRootLoop value low high + 1) := by
  fun_induction squareRootLoop value low high with
  | case1 low high h mid hmid ih => exact ih (Nat.succ_pos mid) hmid hhigh (by omega)
  | case2 low high h mid hmid ih =>
    have hmid0 : mid ≠ 0 := fun h ↦ by simp [h] at hmid
    exact ih hpos hlow (by rwa [Nat.sub_add_cancel (by omega), ← not_le]) (by omega)
  | case3 low high h =>
    obtain rfl : low = high + 1 := by omega
    exact ⟨hlow, hhigh⟩

/-- **The binary search finds the integer square root.** -/
theorem isGreatest_squareRootFloor (value : ℕ) :
    IsGreatest {m | m * m ≤ value} (squareRootFloor value) := by
  have hspec : squareRootFloor value * squareRootFloor value ≤ value ∧
      value < (squareRootFloor value + 1) * (squareRootFloor value + 1) := by
    rw [squareRootFloor]
    split
    · constructor <;> nlinarith
    · exact squareRootLoop_spec Nat.one_pos (Nat.zero_le _) (by nlinarith) (by omega)
  exact ⟨hspec.1, fun m hm ↦ by
    have hm : m * m ≤ value := hm
    nlinarith⟩

/-! ### Deposits and withdrawals -/

/-- A pool that is not empty. -/
structure LivePool extends Pool where
  reserveA_pos : 0 < reserveA
  reserveB_pos : 0 < reserveB
  totalShares_pos : 0 < totalShares

namespace LivePool

variable (pool : LivePool)

def after (d : Deposit) : LivePool where
  reserveA := pool.reserveA + d.consumedA
  reserveB := pool.reserveB + d.consumedB
  totalShares := pool.totalShares + d.minted
  reserveA_pos := Nat.add_pos_left pool.reserveA_pos _
  reserveB_pos := Nat.add_pos_left pool.reserveB_pos _
  totalShares_pos := Nat.add_pos_left pool.totalShares_pos _

def less (w : Withdrawal) (shares : ℕ) : Pool :=
  ⟨pool.reserveA - w.withdrawnA, pool.reserveB - w.withdrawnB, pool.totalShares - shares⟩

/-- **What a deposit is good for**: it takes no more than was offered and mints as much as that is
worth, and the shares give back what was taken, unless there are too many of them for a request. -/
structure DepositLaw (amountA amountB : ℕ) (d : Deposit) : Prop where
  takes : d.consumedA ≤ amountA ∧ d.consumedB ≤ amountB
  most : amountA * pool.totalShares < (d.minted + 1) * pool.reserveA ∨
    amountB * pool.totalShares < (d.minted + 1) * pool.reserveB
  back : withdraw (pool.after d).toPool d.minted =
    if d.minted ≤ int64Max then .ok ⟨d.consumedA, d.consumedB⟩ else .error .invalidAmount

/-- **What a withdrawal is good for**: it gives no more than there is, and to withdraw in two steps
costs at most a stroop. -/
structure WithdrawalLaw : Prop where
  within : ∀ shares w, withdraw pool.toPool shares = .ok w →
    w.withdrawnA ≤ pool.reserveA ∧ w.withdrawnB ≤ pool.reserveB
  twice : ∀ s₁ s₂, 0 < s₁ → 0 < s₂ → s₁ + s₂ ≤ int64Max → s₁ + s₂ ≤ pool.totalShares →
    ∃ first second once,
      withdraw pool.toPool s₁ = .ok first ∧ withdraw (pool.less first s₁) s₂ = .ok second ∧
        withdraw pool.toPool (s₁ + s₂) = .ok once ∧
        (first.withdrawnA + second.withdrawnA ≤ once.withdrawnA ∧
          once.withdrawnA ≤ first.withdrawnA + second.withdrawnA + 1) ∧
        (first.withdrawnB + second.withdrawnB ≤ once.withdrawnB ∧
          once.withdrawnB ≤ first.withdrawnB + second.withdrawnB + 1)

variable {pool} {amountA amountB : ℕ} {d : Deposit}

/-- What a deposit to a live pool answers. -/
theorem deposit_eq_ok (h : deposit pool.toPool amountA amountB = .ok d) :
    0 < d.minted ∧
      d.minted = min (amountA * pool.totalShares / pool.reserveA)
        (amountB * pool.totalShares / pool.reserveB) ∧
      d.consumedA = d.minted * pool.reserveA / pool.totalShares ∧
      d.consumedB = d.minted * pool.reserveB / pool.totalShares := by
  simp only [deposit, pool.reserveA_pos.ne', pool.reserveB_pos.ne', false_and, or_self,
    if_false, ← min_def_lt] at h
  split_ifs at h with hamounts hc hm
  cases h
  exact ⟨Nat.pos_of_ne_zero hm, rfl, rfl, rfl⟩

/-- What a withdrawal answers that is not refused. -/
theorem withdraw_eq {pool : Pool} {shares : ℕ} (hA : 0 < pool.reserveA) (hB : 0 < pool.reserveB)
    (hshares : positiveAmount shares) (hle : shares ≤ pool.totalShares) :
    withdraw pool shares = .ok ⟨pool.reserveA * shares / pool.totalShares,
      pool.reserveB * shares / pool.totalShares⟩ := by
  rw [withdraw, if_neg (not_not.2 hshares), if_neg, if_neg (not_lt.2 hle)]
  simp [Pool.consistent, hA.ne', hB.ne', (hshares.1.trans_le hle).ne']

/-- Every deposit that is answered keeps to the law. -/
theorem depositLaw (h : deposit pool.toPool amountA amountB = .ok d) :
    pool.DepositLaw amountA amountB d := by
  obtain ⟨hpos, hmin, hA, hB⟩ := deposit_eq_ok h
  have takes {a r : ℕ} (hr : d.minted ≤ a * pool.totalShares / r) :
      d.minted * r / pool.totalShares ≤ a :=
    Nat.div_le_of_le_mul <| (Nat.mul_comm _ a).symm ▸ (Nat.mul_le_mul_right r hr).trans
      (Nat.div_mul_le_self _ _)
  refine ⟨⟨hA ▸ takes (hmin.trans_le (min_le_left _ _)),
    hB ▸ takes (hmin.trans_le (min_le_right _ _))⟩, ?_, ?_⟩
  · rw [hmin, ← Nat.div_lt_iff_lt_mul pool.reserveA_pos, ← Nat.div_lt_iff_lt_mul pool.reserveB_pos]
    omega
  · split_ifs with hmax
    · rw [withdraw_eq (pool.after d).reserveA_pos (pool.after d).reserveB_pos ⟨hpos, hmax⟩
        (Nat.le_add_left _ _)]
      simp only [after, hA, hB, withdrawn_of_minted pool.totalShares_pos]
    · rw [withdraw, if_pos fun h ↦ hmax h.2]

/-- So do the withdrawals from every live pool. -/
theorem withdrawalLaw (pool : LivePool) : pool.WithdrawalLaw := by
  have lt {r s : ℕ} (hr : 0 < r) (hs : s < pool.totalShares) : r * s / pool.totalShares < r :=
    (Nat.div_lt_iff_lt_mul pool.totalShares_pos).2 (Nat.mul_lt_mul_of_pos_left hs hr)
  refine ⟨fun shares w h ↦ ?_, fun s₁ s₂ h₁ h₂ hmax hle ↦ ?_⟩
  · simp only [withdraw] at h
    split_ifs at h with hshares hc hlt
    cases h
    exact ⟨Nat.div_le_of_le_mul (by rw [Nat.mul_comm]; gcongr; omega),
      Nat.div_le_of_le_mul (by rw [Nat.mul_comm]; gcongr; omega)⟩
  · refine ⟨_, _, _, withdraw_eq pool.reserveA_pos pool.reserveB_pos ⟨h₁, by omega⟩ (by omega),
      withdraw_eq (Nat.sub_pos_of_lt (lt pool.reserveA_pos (by omega)))
        (Nat.sub_pos_of_lt (lt pool.reserveB_pos (by omega))) ⟨h₂, by omega⟩
        (Nat.le_sub_of_add_le' hle),
      withdraw_eq pool.reserveA_pos pool.reserveB_pos ⟨by omega, hmax⟩ hle,
      withdrawn_twice h₂ hle, withdrawn_twice h₂ hle⟩

/-- **Deposits and withdrawals agree**, on every live pool and from its first deposit on. -/
theorem calculator_consistent :
    (∀ (pool : LivePool) amountA amountB d, deposit pool.toPool amountA amountB = .ok d →
      pool.DepositLaw amountA amountB d) ∧
    (∀ pool : LivePool, pool.WithdrawalLaw) ∧
    ∀ amountA amountB, positiveAmount amountA → positiveAmount amountB →
      ∃ d, deposit ⟨0, 0, 0⟩ amountA amountB = .ok d ∧
        IsGreatest {m | m * m ≤ amountA * amountB} d.minted := by
  refine ⟨fun _ _ _ _ h ↦ depositLaw h, withdrawalLaw, fun amountA amountB hA hB ↦ ?_⟩
  have hroot := isGreatest_squareRootFloor (amountA * amountB)
  have hpos : 1 ≤ squareRootFloor (amountA * amountB) := hroot.2 (Nat.mul_pos hA.1 hB.1)
  refine ⟨⟨amountA, amountB, squareRootFloor (amountA * amountB)⟩, ?_, hroot⟩
  simp [deposit, Pool.consistent, hA, hB, Nat.one_le_iff_ne_zero.1 hpos]

/-- **Two stroops of each asset mint more shares than a request can name**, in a pool with one
stroop of each and as many shares as fit into an int64. -/
theorem minted_refused : ∃ (pool : LivePool) (d : Deposit), deposit pool.toPool 2 2 = .ok d ∧
    withdraw (pool.after d).toPool d.minted = .error .invalidAmount :=
  ⟨⟨⟨1, 1, int64Max⟩, by decide, by decide, by decide⟩, ⟨2, 2, 2 * int64Max⟩, rfl, rfl⟩

/-! ### What backs the shares of the others -/

/-- No asset backs a share with less after the deposit than before it. -/
def Backed (pool : LivePool) (d : Deposit) : Prop :=
  pool.reserveA * (pool.totalShares + d.minted) ≤
      (pool.reserveA + d.consumedA) * pool.totalShares ∧
    pool.reserveB * (pool.totalShares + d.minted) ≤
      (pool.reserveB + d.consumedB) * pool.totalShares

/-- One asset backs a share with as much as before exactly when its amount is not rounded. -/
theorem backed_asset_iff {r t m : ℕ} : r * (t + m) ≤ (r + m * r / t) * t ↔ t ∣ m * r := by
  rw [Nat.dvd_iff_div_mul_eq]
  have := Nat.div_mul_le_self (m * r) t
  constructor <;> intro h <;> nlinarith

/-- **What a deposit takes backs its shares exactly when nothing is rounded off.** Otherwise less
than a stroop is missing. -/
theorem backed_iff (h : deposit pool.toPool amountA amountB = .ok d) :
    (pool.Backed d ↔ pool.totalShares ∣ d.minted * pool.reserveA ∧
      pool.totalShares ∣ d.minted * pool.reserveB) ∧
    pool.Backed ⟨d.consumedA + 1, d.consumedB + 1, d.minted⟩ := by
  obtain ⟨-, -, hA, hB⟩ := deposit_eq_ok h
  have more (r : ℕ) : r * (pool.totalShares + d.minted) ≤
      (r + (d.minted * r / pool.totalShares + 1)) * pool.totalShares := by
    have := Nat.lt_div_mul_add (a := d.minted * r) pool.totalShares_pos
    nlinarith
  simp only [Backed, hA, hB, backed_asset_iff, true_and]
  exact ⟨more _, more _⟩

/-- A deposit of half of what is there dilutes nobody. -/
theorem backed_doubled : (LivePool.mk ⟨2, 2, 2⟩ (by decide) (by decide) (by decide)).Backed
    ⟨1, 1, 1⟩ :=
  (@backed_iff _ 1 1 _ rfl).1.2 (by decide)

/-- One share of a pool with three stroops to two shares takes one stroop. -/
theorem diluted : ∃ (pool : LivePool) (d : Deposit), deposit pool.toPool 2 2 = .ok d ∧
    ¬ pool.Backed d :=
  ⟨⟨⟨3, 3, 2⟩, by decide, by decide, by decide⟩, ⟨1, 1, 1⟩, rfl, fun h ↦ absurd h.1 (by decide)⟩

end LivePool

end Utix.Liquidity
