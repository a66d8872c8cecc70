import LedgerReports.Proofs.Amount.Order
import LedgerReports.Proofs.Script.HostOperators

/-!
# The laws of balances

A script puts balances together by operators. As long as all of them are of one
security, an expression of any size gives a balance of this security, and what
the balance is worth is what comes out for rational numbers, exactly
(`BalanceExpr.isWorth`). Two balances compare as what they are worth, in
whichever of its many forms each of the two amounts is. So the laws of an ordered
group are laws of balances (`balances_obey_laws`): they are taken from the
rational numbers, not shown for one form of amounts after the other.

Balances of different securities do not mix. To add, to subtract or to order two
of them raises an error that names both, and they are never equal.
-/

namespace LedgerReports.Script

/-! ## Two balances -/

section Pair

variable {a b : Balance}

/-- The error for two securities that do not mix. -/
def cannotCombine (s t : Security) : HostError :=
  .runtime s!"cannot combine balances in {s.symbol} and {t.symbol}"

/-- The operand on the right, once it is known to be of the same security. -/
def otherBalance (c : Call) (name : String) (a : Balance) : ScriptM Balance := do
  let b ← c.readFor name 1 Value.asBalance
  checkSameSecurity a b
  return b

theorem otherBalance_of_same (h : a.security.id = b.security.id) (c : Call) (name : String)
    (v : Value) (j : Nat) :
    otherBalance { c with args := #[v, .object j (.balance b)] } name a = pure b := by
  show (pure b >>= fun b => do checkSameSecurity a b; return b : ScriptM Balance) = pure b
  rw [pure_bind, checkSameSecurity, if_pos h, pure_bind]

theorem raises_otherBalance (h : a.security.id ≠ b.security.id) (c : Call) (name : String)
    (v : Value) (j : Nat) :
    Raises (otherBalance { c with args := #[v, .object j (.balance b)] } name a)
      (cannotCombine a.security b.security) := by
  show Raises (pure b >>= fun b => do checkSameSecurity a b; return b : ScriptM Balance) _
  rw [pure_bind, checkSameSecurity, if_neg h]
  exact (raises_raiseHost _).bind _

theorem operate_add (a b : Balance) (h : a.security.id = b.security.id) (c : Call) (i j : Nat) :
    c.operate .balance .add (.object i (.balance a)) (.object j (.balance b))
      = newObject (.balance { a with amount := a.amount + b.amount }) := by
  rw [operate_balance rfl]
  show (otherBalance _ _ a >>= fun b => newObject _) = _
  rw [otherBalance_of_same h, pure_bind]

theorem operate_sub (a b : Balance) (h : a.security.id = b.security.id) (c : Call) (i j : Nat) :
    c.operate .balance .sub (.object i (.balance a)) (.object j (.balance b))
      = newObject (.balance { a with amount := a.amount - b.amount }) := by
  rw [operate_balance rfl]
  show (otherBalance _ _ a >>= fun b => newObject _) = _
  rw [otherBalance_of_same h, pure_bind]

theorem operate_neg (a : Balance) (c : Call) (i : Nat) (w : Value) :
    c.operate .balance .neg (.object i (.balance a)) w
      = newObject (.balance { a with amount := -a.amount }) :=
  operate_balance rfl c i a w

theorem operate_eq (a b : Balance) (c : Call) (i j : Nat) :
    c.operate .balance .eq (.object i (.balance a)) (.object j (.balance b))
      = pure (.bool (a.same b)) :=
  operate_balance rfl c i a _

theorem operate_lt (a b : Balance) (h : a.security.id = b.security.id) (c : Call) (i j : Nat) :
    c.operate .balance .lt (.object i (.balance a)) (.object j (.balance b))
      = pure (.bool (a.amount.compare b.amount == .lt)) := by
  rw [operate_balance rfl]
  show (otherBalance _ _ a >>= fun b => pure _) = _
  rw [otherBalance_of_same h, pure_bind]

theorem operate_le (a b : Balance) (h : a.security.id = b.security.id) (c : Call) (i j : Nat) :
    c.operate .balance .le (.object i (.balance a)) (.object j (.balance b))
      = pure (.bool (a.amount.compare b.amount != .gt)) := by
  rw [operate_balance rfl]
  show (otherBalance _ _ a >>= fun b => pure _) = _
  rw [otherBalance_of_same h, pure_bind]

/-- Whether an operator needs two balances of one security. -/
def needsOneSecurity : HostOperator → Bool
  | .add | .sub | .lt | .le => true
  | _ => false

/-- Balances of different securities do not mix. -/
theorem raises_operate {op : HostOperator} (hop : needsOneSecurity op = true)
    (h : a.security.id ≠ b.security.id) (c : Call) (i j : Nat) :
    Raises (c.operate .balance op (.object i (.balance a)) (.object j (.balance b)))
      (cannotCombine a.security b.security) := by
  cases op with
  | add | sub | lt | le =>
    rw [operate_balance rfl]
    exact (raises_otherBalance h c _ _ j).bind _
  | _ => cases hop

theorem same_eq_decide (s : Security) (x y : Amount) :
    Balance.same ⟨s, x⟩ ⟨s, y⟩ = decide (x.value = y.value) := by
  rw [Balance.same, beq_self_eq_true, Bool.true_and, Bool.eq_iff_iff, Amount.same_iff,
    decide_eq_true_iff]

theorem same_eq_false (h : a.security.id ≠ b.security.id) : a.same b = false := by
  rw [Balance.same, beq_false_of_ne fun hsame => h (congrArg Security.id hsame), Bool.false_and]

end Pair

/-! ## Expressions -/

/-- **An expression with balances**, as a script can write it: balances that it has, put together by
operators. -/
inductive BalanceExpr where
  /-- A balance, which is the object with this number. -/
  | held (id : Nat) (b : Balance)
  /-- A sum. -/
  | add (x y : BalanceExpr)
  /-- A difference. -/
  | sub (x y : BalanceExpr)
  /-- A negated expression. -/
  | neg (x : BalanceExpr)

namespace BalanceExpr

instance : Add BalanceExpr := ⟨add⟩

instance : Sub BalanceExpr := ⟨sub⟩

instance : Neg BalanceExpr := ⟨neg⟩

/-- What a script does to have the value of an expression. -/
def eval (c : Call) : BalanceExpr → ScriptM Value
  | held id b => return .object id (.balance b)
  | add x y => do
    let v ← x.eval c
    c.operate .balance .add v (← y.eval c)
  | sub x y => do
    let v ← x.eval c
    c.operate .balance .sub v (← y.eval c)
  | neg x => do
    -- an operator with one operand gets it twice
    let v ← x.eval c
    c.operate .balance .neg v v

/-- What a script does to compare two expressions. -/
def compared (x : BalanceExpr) (op : HostOperator) (y : BalanceExpr) (c : Call) :
    ScriptM Value := do
  let v ← x.eval c
  c.operate .balance op v (← y.eval c)

/-- All balances of an expression are of a security. -/
def IsOf (s : Security) : BalanceExpr → Prop
  | held _ b => b.security = s
  | add x y => x.IsOf s ∧ y.IsOf s
  | sub x y => x.IsOf s ∧ y.IsOf s
  | neg x => x.IsOf s

/-- **What an expression is worth**, as a rational number. -/
def worth : BalanceExpr → ℚ
  | held _ b => b.amount.value
  | add x y => x.worth + y.worth
  | sub x y => x.worth - y.worth
  | neg x => -x.worth

/-- **The value of an expression is a balance** of a security that is worth a rational number. -/
def IsWorth (s : Security) (x : BalanceExpr) (q : ℚ) : Prop :=
  ∀ c, Gives (x.eval c) fun v =>
    ∃ id amount, v = .object id (.balance ⟨s, amount⟩) ∧ amount.value = q

/-- **A comparison of two expressions comes out** as true or false. -/
def Says (x : BalanceExpr) (op : HostOperator) (y : BalanceExpr) (truth : Bool) : Prop :=
  ∀ c, Gives (x.compared op y c) (· = .bool truth)

section Worth

variable {s t : Security} {x y z : BalanceExpr} {p q : ℚ}

/-- Two balances that expressions give are put together. -/
theorem IsWorth.bind₂ (hx : x.IsWorth s p) (hy : y.IsWorth t q) (c : Call) {Q : Value → Prop}
    {f : Value → Value → ScriptM Value}
    (hf : ∀ i j a b, a.value = p → b.value = q →
      Gives (f (.object i (.balance ⟨s, a⟩)) (.object j (.balance ⟨t, b⟩))) Q) :
    Gives (do let v ← x.eval c; f v (← y.eval c)) Q :=
  (hx c).bind fun v ⟨i, a, hv, ha⟩ => (hy c).bind fun w ⟨j, b, hw, hb⟩ => by
    rw [hv, hw]
    exact hf i j a b ha hb

theorem gives_balance (b : Balance) : Gives (newObject (.balance b)) fun v =>
    ∃ id amount, v = .object id (.balance ⟨b.security, amount⟩)
      ∧ amount.value = b.amount.value :=
  (gives_newObject _).imp fun _ ⟨id, hv⟩ => ⟨id, b.amount, hv, rfl⟩

theorem IsWorth.add (hx : x.IsWorth s p) (hy : y.IsWorth s q) : (x + y).IsWorth s (p + q) := by
  intro c
  refine hx.bind₂ hy c fun i j a b ha hb => ?_
  rw [operate_add ⟨s, a⟩ ⟨s, b⟩ rfl, ← ha, ← hb, ← Amount.value_add]
  exact gives_balance _

theorem IsWorth.sub (hx : x.IsWorth s p) (hy : y.IsWorth s q) : (x - y).IsWorth s (p - q) := by
  intro c
  refine hx.bind₂ hy c fun i j a b ha hb => ?_
  rw [operate_sub ⟨s, a⟩ ⟨s, b⟩ rfl, ← ha, ← hb, ← Amount.value_sub]
  exact gives_balance _

theorem IsWorth.neg (hx : x.IsWorth s p) : (-x).IsWorth s (-p) := by
  intro c
  refine (hx c).bind fun v ⟨i, a, hv, ha⟩ => ?_
  rw [hv, operate_neg, ← ha, ← Amount.value_neg]
  exact gives_balance _

/-- **An expression gives a balance of its security, and nothing is lost**: the balance is worth
what the expression is worth. -/
theorem isWorth (h : x.IsOf s) : x.IsWorth s x.worth := by
  induction x with
  | held id b => exact fun c => gives_pure ⟨id, b.amount, by rw [← h], rfl⟩
  | add x y ihx ihy => exact (ihx h.1).add (ihy h.2)
  | sub x y ihx ihy => exact (ihx h.1).sub (ihy h.2)
  | neg x ih => exact (ih h).neg

/-! ### Comparisons -/

theorem IsWorth.says_eq (hx : x.IsWorth s p) (hy : y.IsWorth s q) :
    x.Says .eq y (decide (p = q)) := by
  intro c
  refine hx.bind₂ hy c fun i j a b ha hb => ?_
  rw [operate_eq, same_eq_decide, ← ha, ← hb]
  exact gives_pure rfl

/-- Two expressions that are worth the same are equal. -/
theorem IsWorth.says_eq_true (hx : x.IsWorth s p) (hy : y.IsWorth s q) (h : p = q) :
    x.Says .eq y true :=
  decide_eq_true h ▸ hx.says_eq hy

theorem IsWorth.says_lt (hx : x.IsWorth s p) (hy : y.IsWorth s q) :
    x.Says .lt y (decide (p < q)) := by
  intro c
  refine hx.bind₂ hy c fun i j a b ha hb => ?_
  rw [operate_lt ⟨s, a⟩ ⟨s, b⟩ rfl, ← ha, ← hb]
  exact gives_pure (congrArg Value.bool (Bool.eq_iff_iff.mpr
    (Amount.compare_eq_lt_iff.trans decide_eq_true_iff.symm)))

theorem IsWorth.says_le (hx : x.IsWorth s p) (hy : y.IsWorth s q) :
    x.Says .le y (decide (p ≤ q)) := by
  intro c
  refine hx.bind₂ hy c fun i j a b ha hb => ?_
  rw [operate_le ⟨s, a⟩ ⟨s, b⟩ rfl, ← ha, ← hb]
  exact gives_pure (congrArg Value.bool (Bool.eq_iff_iff.mpr
    (Amount.compare_ne_gt_iff.trans decide_eq_true_iff.symm)))

/-! ### Different securities -/

/-- Operators that need one security raise an error for two. -/
theorem IsWorth.raises (hx : x.IsWorth s p) (hy : y.IsWorth t q) (hne : s.id ≠ t.id)
    {op : HostOperator} (hop : needsOneSecurity op = true) (c : Call) :
    Raises (x.compared op y c) (cannotCombine s t) :=
  (hx c).raises fun v ⟨i, a, hv, _⟩ => (hy c).raises fun w ⟨j, b, hw, _⟩ => by
    rw [hv, hw]
    exact raises_operate (a := ⟨s, a⟩) (b := ⟨t, b⟩) hop hne c i j

theorem IsWorth.says_eq_false (hx : x.IsWorth s p) (hy : y.IsWorth t q) (hne : s.id ≠ t.id) :
    x.Says .eq y false := by
  intro c
  refine hx.bind₂ hy c fun i j a b _ _ => ?_
  rw [operate_eq, same_eq_false hne]
  exact gives_pure rfl

end Worth

end BalanceExpr

/-! ## The laws -/

/-- **The laws of an ordered group**, as a script sees them for three expressions with balances of a
security. -/
structure OrderedGroupLaws (s : Security) (x y z : BalanceExpr) : Prop where
  /-- A sum is a balance of the security, and it is exact. -/
  add : (x + y).IsWorth s (x.worth + y.worth)
  /-- So is a difference. -/
  sub : (x - y).IsWorth s (x.worth - y.worth)
  /-- So is a negated balance. -/
  neg : (-x).IsWorth s (-x.worth)
  /-- The order of two terms does not matter. -/
  add_comm : (x + y).Says .eq (y + x) true
  /-- It does not matter which sum is taken first. -/
  add_assoc : (x + y + z).Says .eq (x + (y + z)) true
  /-- A difference is a sum. -/
  sub_eq_add_neg : (x - y).Says .eq (x + -y) true
  /-- What is added can be taken off again. -/
  add_sub_cancel : (x + y - y).Says .eq x true
  /-- Negating twice changes nothing. -/
  neg_neg : (- -x).Says .eq x true
  /-- Balances are equal just if they are worth the same, in whatever form the amounts are. -/
  eq_iff : x.Says .eq y (decide (x.worth = y.worth))
  /-- Of two balances one is less than the other, or they are equal, and never two of these hold;
  what is less or equal is just that. -/
  trichotomy : ∃ lt eq gt : Bool, x.Says .lt y lt ∧ x.Says .eq y eq ∧ y.Says .lt x gt
    ∧ [lt, eq, gt].count true = 1 ∧ x.Says .le y (lt || eq)
  /-- A balance that is added on both sides does not change the order. -/
  add_le_add : ∃ le : Bool, x.Says .le y le ∧ (x + z).Says .le (y + z) le

/-- **Two balances of different securities do not mix.** -/
structure KeptApart (s t : Security) (x y : BalanceExpr) : Prop where
  /-- They have no sum. -/
  add : ∀ c, Raises ((x + y).eval c) (cannotCombine s t)
  /-- They have no difference. -/
  sub : ∀ c, Raises ((x - y).eval c) (cannotCombine s t)
  /-- Neither is less. -/
  lt : ∀ c, Raises (x.compared .lt y c) (cannotCombine s t)
  /-- Nor is it less or equal. -/
  le : ∀ c, Raises (x.compared .le y c) (cannotCombine s t)
  /-- They are not equal. -/
  eq : x.Says .eq y false

section Laws

variable {s t : Security} {x y z : BalanceExpr}

theorem count_true_trichotomy (p q : ℚ) :
    [decide (p < q), decide (p = q), decide (q < p)].count true = 1 := by
  obtain hlt | rfl | hgt := lt_trichotomy p q
  · simp [hlt, hlt.ne, hlt.not_gt]
  · simp
  · simp [hgt, hgt.ne', hgt.not_gt]

theorem decide_le_eq_or (p q : ℚ) : decide (p ≤ q) = (decide (p < q) || decide (p = q)) := by
  rw [← Bool.decide_or]
  exact decide_eq_decide.mpr le_iff_lt_or_eq

/-- The laws hold since they hold for rational numbers. -/
theorem orderedGroupLaws (hx : x.IsOf s) (hy : y.IsOf s) (hz : z.IsOf s) :
    OrderedGroupLaws s x y z := by
  have wx := BalanceExpr.isWorth hx
  have wy := BalanceExpr.isWorth hy
  have wz := BalanceExpr.isWorth hz
  exact
    { add := wx.add wy
      sub := wx.sub wy
      neg := wx.neg
      add_comm := (wx.add wy).says_eq_true (wy.add wx) (add_comm _ _)
      add_assoc := ((wx.add wy).add wz).says_eq_true (wx.add (wy.add wz)) (add_assoc _ _ _)
      sub_eq_add_neg := (wx.sub wy).says_eq_true (wx.add wy.neg) (sub_eq_add_neg _ _)
      add_sub_cancel := ((wx.add wy).sub wy).says_eq_true wx (add_sub_cancel_right _ _)
      neg_neg := wx.neg.neg.says_eq_true wx (neg_neg _)
      eq_iff := wx.says_eq wy
      trichotomy := ⟨_, _, _, wx.says_lt wy, wx.says_eq wy, wy.says_lt wx,
        count_true_trichotomy _ _, decide_le_eq_or _ _ ▸ wx.says_le wy⟩
      add_le_add := by
        have hle : decide (x.worth + z.worth ≤ y.worth + z.worth) = decide (x.worth ≤ y.worth) :=
          decide_eq_decide.mpr (add_le_add_iff_right z.worth)
        exact ⟨_, wx.says_le wy, hle ▸ (wx.add wz).says_le (wy.add wz)⟩ }

theorem keptApart (hx : x.IsOf s) (hy : y.IsOf t) (hne : s.id ≠ t.id) : KeptApart s t x y := by
  have wx := BalanceExpr.isWorth hx
  have wy := BalanceExpr.isWorth hy
  exact
    { add := wx.raises wy hne rfl
      sub := wx.raises wy hne rfl
      lt := wx.raises wy hne rfl
      le := wx.raises wy hne rfl
      eq := wx.says_eq_false wy hne }

/-- **Balances of a security are an ordered group, exactly, and do not mix with those of another
one.** -/
theorem balances_obey_laws (hx : x.IsOf s) (hy : y.IsOf s) (hz : z.IsOf s) :
    OrderedGroupLaws s x y z
      ∧ ∀ (t : Security) (w : BalanceExpr), w.IsOf t → s.id ≠ t.id → KeptApart s t x w :=
  ⟨orderedGroupLaws hx hy hz, fun _ _ => keptApart hx⟩

/-- One and a half with a zero more or less, nothing with three decimal places, and some gold. -/
theorem balances_obey_laws_in_two_forms :
    let euro : Security := ⟨1, "euro", "euro", "EUR", 2, .currency⟩
    let gold : Security := ⟨2, "gold", "gold", "XAU", 3, .currency⟩
    let x : BalanceExpr := .held 0 ⟨euro, ⟨150, 2⟩⟩
    let y : BalanceExpr := .held 1 ⟨euro, ⟨15, 1⟩⟩
    let z : BalanceExpr := .held 2 ⟨euro, ⟨0, 3⟩⟩
    let w : BalanceExpr := .held 3 ⟨gold, ⟨15, 1⟩⟩
    x.IsOf euro ∧ y.IsOf euro ∧ z.IsOf euro ∧ w.IsOf gold ∧ euro.id ≠ gold.id
      ∧ x.Says .eq y true ∧ (∃ le : Bool, x.Says .le y le ∧ (x + z).Says .le (y + z) le)
      ∧ x.Says .eq w false ∧ ∀ c, Raises ((x + w).eval c) (cannotCombine euro gold) := by
  intro euro gold x y z w
  have hx : x.IsOf euro := rfl
  have hy : y.IsOf euro := rfl
  have hz : z.IsOf euro := rfl
  obtain ⟨hlaws, hapart⟩ := balances_obey_laws hx hy hz
  have hne : euro.id ≠ gold.id := by decide
  have hkept := hapart gold w rfl hne
  have hsame : x.worth = y.worth := by
    show (150 : ℤ) * (10 : ℚ) ^ (-2 : ℤ) = (15 : ℤ) * (10 : ℚ) ^ (-1 : ℤ)
    norm_num
  exact ⟨hx, hy, hz, rfl, hne, decide_eq_true hsame ▸ hlaws.eq_iff, hlaws.add_le_add,
    hkept.eq, hkept.add⟩

end Laws

end LedgerReports.Script
