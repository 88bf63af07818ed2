import Mathlib.Data.Set.Operations
import Tang.Proofs.Occurrence
import Tang.Value.Operators
import Tang.Value.Printer

/-! Equality of values. Values are the same if they have the same parts; functions are the same if
they have the same serial, and builtin functions if they have the same name. A comparison may stop
early where both sides are one and the same list, tuple or map in memory. This makes no difference,
because what is compared part by part is always the same as itself. Where no two functions share a
serial, the same values are equal, so that nothing tells them apart. -/

namespace Tang

/-! ### Comparison part by part -/

/-- The parts of keys are numbers, truth values and texts. -/
def Key.same : Key → Key → Bool
  | .int m, .int n => m == n
  | .bool b, .bool c => b == c
  | .str s, .str t => s == t
  | _, _ => false

theorem Key.same_eq_true_iff {j k : Key} : j.same k = true ↔ j = k := by
  cases j <;> cases k <;> simp [Key.same]

namespace Value

mutual

/-- Values of one kind with the same parts. -/
def same : Value → Value → Bool
  | .int m, .int n => m == n
  | .bool b, .bool c => b == c
  | .str s, .str t => s == t
  | .null, .null => true
  | .list as, .list bs => sameAll as bs
  | .tuple as, .tuple bs => sameAll as bs
  | .map as, .map bs => sameEntries as bs
  | .function f, .function g => f.serial == g.serial
  | .builtin f, .builtin g => f.name == g.name
  | _, _ => false

def sameAll : List Value → List Value → Bool
  | [], [] => true
  | a :: as, b :: bs => a.same b && sameAll as bs
  | _, _ => false

/-- Entries are compared by the slots of their keys, by the keys and by the values. -/
def sameEntries : List (Key × Value) → List (Key × Value) → Bool
  | [], [] => true
  | (j, a) :: as, (k, b) :: bs => (j.slot == k.slot && j.same k && a.same b) && sameEntries as bs
  | _, _ => false

end

mutual

/-- The answers that a comparison may give. Where one list, tuple or map is on both sides, it may
give its answer without a look inside. -/
inductive Compares : Value → Value → Bool → Prop where
  | int (m n : Int64) : Compares (.int m) (.int n) (m == n)
  | bool (b c : Bool) : Compares (.bool b) (.bool c) (b == c)
  | str (s t : String) : Compares (.str s) (.str t) (s == t)
  | null : Compares .null .null true
  | shared {a : Value} : a.tag = .list ∨ a.tag = .tuple ∨ a.tag = .map → Compares a a true
  | list {as bs : List Value} {answer : Bool} :
    ComparesAll as bs answer → Compares (.list as) (.list bs) answer
  | tuple {as bs : List Value} {answer : Bool} :
    ComparesAll as bs answer → Compares (.tuple as) (.tuple bs) answer
  | map {as bs : List (Key × Value)} {answer : Bool} :
    ComparesEntries as bs answer → Compares (.map as) (.map bs) answer
  | function (f g : Closure) : Compares (.function f) (.function g) (f.serial == g.serial)
  | builtin (f g : Builtin) : Compares (.builtin f) (.builtin g) (f.name == g.name)
  | kinds {a b : Value} : a.tag ≠ b.tag → Compares a b false

/-- Rows of different lengths are not the same, and other rows are compared up to the first
difference. -/
inductive ComparesAll : List Value → List Value → Bool → Prop where
  | nil : ComparesAll [] [] true
  | lengths {as bs : List Value} : as.length ≠ bs.length → ComparesAll as bs false
  | differ {a b : Value} {as bs : List Value} :
    Compares a b false → ComparesAll (a :: as) (b :: bs) false
  | agree {a b : Value} {as bs : List Value} {answer : Bool} :
    Compares a b true → ComparesAll as bs answer → ComparesAll (a :: as) (b :: bs) answer

inductive ComparesEntries : List (Key × Value) → List (Key × Value) → Bool → Prop where
  | nil : ComparesEntries [] [] true
  | lengths {as bs : List (Key × Value)} : as.length ≠ bs.length → ComparesEntries as bs false
  | slots {j k : Key} {a b : Value} {as bs : List (Key × Value)} :
    j.slot ≠ k.slot → ComparesEntries ((j, a) :: as) ((k, b) :: bs) false
  | keys {j k : Key} {a b : Value} {as bs : List (Key × Value)} :
    j.same k = false → ComparesEntries ((j, a) :: as) ((k, b) :: bs) false
  | differ {j k : Key} {a b : Value} {as bs : List (Key × Value)} :
    Compares a b false → ComparesEntries ((j, a) :: as) ((k, b) :: bs) false
  | agree {j k : Key} {a b : Value} {as bs : List (Key × Value)} {answer : Bool} :
    j.slot = k.slot → j.same k = true → Compares a b true → ComparesEntries as bs answer →
      ComparesEntries ((j, a) :: as) ((k, b) :: bs) answer

end

/-! ### Shortcuts -/

mutual

theorem same_refl : (a : Value) → a.same a = true
  | .int _ | .bool _ | .str _ | .function _ | .builtin _ => beq_self_eq_true _
  | .null => rfl
  | .list as | .tuple as => sameAll_refl as
  | .map as => sameEntries_refl as

theorem sameAll_refl : (as : List Value) → sameAll as as = true
  | [] => rfl
  | a :: as => by rw [sameAll, a.same_refl, sameAll_refl as, Bool.and_self]

theorem sameEntries_refl : (as : List (Key × Value)) → sameEntries as as = true
  | [] => rfl
  | (k, a) :: as => by
    rw [sameEntries, beq_self_eq_true, Key.same_eq_true_iff.2 rfl, a.same_refl,
      sameEntries_refl as]
    rfl

end

theorem same_of_tag_ne {a b : Value} (h : a.tag ≠ b.tag) : a.same b = false := by
  cases a <;> cases b <;> first | rfl | exact absurd rfl h

theorem tag_eq_of_same {a b : Value} (h : a.same b = true) : a.tag = b.tag := by
  by_contra hne
  exact Bool.false_ne_true ((same_of_tag_ne hne).symm.trans h)

theorem sameAll_of_length_ne {as bs : List Value} (h : as.length ≠ bs.length) :
    sameAll as bs = false := by
  induction as generalizing bs with
  | nil =>
    cases bs with
    | nil => exact absurd rfl h
    | cons => rfl
  | cons a as ih =>
    cases bs with
    | nil => rfl
    | cons b bs => rw [sameAll, ih (by simpa using h), Bool.and_false]

theorem sameEntries_of_length_ne {as bs : List (Key × Value)} (h : as.length ≠ bs.length) :
    sameEntries as bs = false := by
  induction as generalizing bs with
  | nil =>
    cases bs with
    | nil => exact absurd rfl h
    | cons => rfl
  | cons a as ih =>
    cases bs with
    | nil => rfl
    | cons b bs => rw [sameEntries, ih (by simpa using h), Bool.and_false]

mutual

/-- A comparison gives the answer of the comparison part by part, with shortcuts or without. -/
theorem Compares.eq_same : {a b : Value} → {answer : Bool} → Compares a b answer →
    answer = a.same b
  | _, _, _, .int .. | _, _, _, .bool .. | _, _, _, .str .. | _, _, _, .null
  | _, _, _, .function .. | _, _, _, .builtin .. => rfl
  | a, _, _, .shared _ => a.same_refl.symm
  | _, _, _, .list h | _, _, _, .tuple h => h.eq_same
  | _, _, _, .map h => h.eq_same
  | _, _, _, .kinds h => (same_of_tag_ne h).symm

theorem ComparesAll.eq_same : {as bs : List Value} → {answer : Bool} → ComparesAll as bs answer →
    answer = sameAll as bs
  | _, _, _, .nil => rfl
  | _, _, _, .lengths h => (sameAll_of_length_ne h).symm
  | _, _, _, .differ h => by rw [sameAll, ← h.eq_same, Bool.false_and]
  | _, _, _, .agree h h' => by rw [sameAll, ← h.eq_same, ← h'.eq_same, Bool.true_and]

theorem ComparesEntries.eq_same : {as bs : List (Key × Value)} → {answer : Bool} →
    ComparesEntries as bs answer → answer = sameEntries as bs
  | _, _, _, .nil => rfl
  | _, _, _, .lengths h => (sameEntries_of_length_ne h).symm
  | _, _, _, .slots h => by simp [sameEntries, h]
  | _, _, _, .keys h => by simp [sameEntries, h]
  | _, _, _, .differ h => by simp [sameEntries, ← h.eq_same]
  | _, _, _, .agree hslot hkey h h' => by simp [sameEntries, hslot, hkey, ← h.eq_same, ← h'.eq_same]

end

mutual

/-- A comparison part by part is a comparison. -/
theorem compares_same (a b : Value) : Compares a b (a.same b) :=
  if h : a.tag = b.tag then
    match a, b, h with
    | .int m, .int n, _ => .int m n
    | .bool b, .bool c, _ => .bool b c
    | .str s, .str t, _ => .str s t
    | .null, .null, _ => .null
    | .list as, .list bs, _ => .list (comparesAll_same as bs)
    | .tuple as, .tuple bs, _ => .tuple (comparesAll_same as bs)
    | .map as, .map bs, _ => .map (comparesEntries_same as bs)
    | .function f, .function g, _ => .function f g
    | .builtin f, .builtin g, _ => .builtin f g
  else by
    rw [same_of_tag_ne h]
    exact .kinds h

theorem comparesAll_same : (as bs : List Value) → ComparesAll as bs (sameAll as bs)
  | [], [] => .nil
  | a :: as, b :: bs => by
    have h := compares_same a b
    rw [sameAll]
    cases hsame : a.same b with
    | false => exact .differ (hsame ▸ h)
    | true => exact .agree (hsame ▸ h) (comparesAll_same as bs)
  | [], _ :: _ | _ :: _, [] => .lengths nofun

theorem comparesEntries_same : (as bs : List (Key × Value)) →
    ComparesEntries as bs (sameEntries as bs)
  | [], [] => .nil
  | (j, a) :: as, (k, b) :: bs => by
    have h := compares_same a b
    rw [sameEntries]
    by_cases hslot : j.slot = k.slot
    · rw [hslot, beq_self_eq_true, Bool.true_and]
      cases hkey : j.same k with
      | false => exact .keys hkey
      | true =>
        cases hsame : a.same b with
        | false => exact .differ (hsame ▸ h)
        | true => exact .agree hslot hkey (hsame ▸ h) (comparesEntries_same as bs)
    · rw [beq_eq_false_iff_ne.2 hslot]
      exact .slots hslot
  | [], _ :: _ | _ :: _, [] => .lengths nofun

end

/-- With shortcuts or without, a comparison has the answer of the comparison part by part and no
other. -/
theorem compares_iff {a b : Value} {answer : Bool} : Compares a b answer ↔ answer = a.same b :=
  ⟨Compares.eq_same, fun h => h ▸ compares_same a b⟩

/-! ### An equivalence -/

mutual

/-- Values that are the same are the same as the same values. -/
theorem same_congr (a b c : Value) (h : a.same b = true) : a.same c = b.same c :=
  have htag := tag_eq_of_same h
  if hc : b.tag = c.tag then
    match a, b, c, htag, hc, h with
    | .int _, .int _, .int k, _, _, h => congrArg (· == k) (eq_of_beq h)
    | .bool _, .bool _, .bool d, _, _, h => congrArg (· == d) (eq_of_beq h)
    | .str _, .str _, .str u, _, _, h => congrArg (· == u) (eq_of_beq h)
    | .null, .null, .null, _, _, _ => rfl
    | .list as, .list bs, .list cs, _, _, h => sameAll_congr as bs cs h
    | .tuple as, .tuple bs, .tuple cs, _, _, h => sameAll_congr as bs cs h
    | .map as, .map bs, .map cs, _, _, h => sameEntries_congr as bs cs h
    | .function _, .function _, .function k, _, _, h => congrArg (· == k.serial) (eq_of_beq h)
    | .builtin _, .builtin _, .builtin k, _, _, h => congrArg (· == k.name) (eq_of_beq h)
  else by
    rw [same_of_tag_ne hc, same_of_tag_ne (htag ▸ hc)]

theorem sameAll_congr : (as bs cs : List Value) → sameAll as bs = true →
    sameAll as cs = sameAll bs cs
  | [], [], _, _ | _ :: _, _ :: _, [], _ => rfl
  | a :: as, b :: bs, c :: cs, h => by
    obtain ⟨hhead, htail⟩ := Bool.and_eq_true_iff.1 h
    rw [sameAll, sameAll, same_congr a b c hhead, sameAll_congr as bs cs htail]

theorem sameEntries_congr : (as bs cs : List (Key × Value)) → sameEntries as bs = true →
    sameEntries as cs = sameEntries bs cs
  | [], [], _, _ | _ :: _, _ :: _, [], _ => rfl
  | (i, a) :: as, (j, b) :: bs, (k, c) :: cs, h => by
    obtain ⟨hhead, htail⟩ := Bool.and_eq_true_iff.1 h
    obtain ⟨hkey, hvalue⟩ := Bool.and_eq_true_iff.1 hhead
    obtain ⟨-, hkey⟩ := Bool.and_eq_true_iff.1 hkey
    rw [sameEntries, sameEntries, Key.same_eq_true_iff.1 hkey, same_congr a b c hvalue,
      sameEntries_congr as bs cs htail]

end

theorem same_comm (a b : Value) : a.same b = b.same a := by
  rw [Bool.eq_iff_iff]
  constructor
  · exact fun h => (same_congr a b a h).symm.trans a.same_refl
  · exact fun h => (same_congr b a b h).symm.trans b.same_refl

/-- Values that are the same count as true together, and have the same place in a map. -/
theorem truthy_slot?_of_same {a b : Value} (h : a.same b = true) :
    a.truthy = b.truthy ∧ a.slot? = b.slot? :=
  match a, b, tag_eq_of_same h, h with
  | .int _, .int _, _, h | .bool _, .bool _, _, h | .str _, .str _, _, h => by
    rw [eq_of_beq h]
    exact ⟨rfl, rfl⟩
  | .null, .null, _, _ | .list _, .list _, _, _ | .tuple _, .tuple _, _, _
  | .map _, .map _, _, _ | .function _, .function _, _, _ | .builtin _, .builtin _, _, _ =>
    ⟨rfl, rfl⟩

/-! ### Values that live together -/

/-- The functions that stand in some values. -/
def functions (values : Set Value) : Set Closure :=
  {f | ∃ a ∈ values, a.Holds f}

/-- No two functions in the values have the same serial. -/
def Coherent (values : Set Value) : Prop :=
  Set.InjOn Closure.serial (functions values)

section

variable {functions : Set Closure}

mutual

theorem eq_of_same (h : Set.InjOn Closure.serial functions) : (a b : Value) →
    (∀ f, a.Holds f → f ∈ functions) → (∀ f, b.Holds f → f ∈ functions) → a.same b = true → a = b
  | a, b, ha, hb, hsame => by
    match a, b, tag_eq_of_same hsame with
    | .int _, .int _, _ | .bool _, .bool _, _ | .str _, .str _, _ =>
      exact congrArg _ (eq_of_beq hsame)
    | .null, .null, _ => rfl
    | .list as, .list bs, _ =>
      refine congrArg _ (eq_of_sameAll h as bs ?_ ?_ hsame)
      · exact fun v hv f hf => ha f (.list hv hf)
      · exact fun v hv f hf => hb f (.list hv hf)
    | .tuple as, .tuple bs, _ =>
      refine congrArg _ (eq_of_sameAll h as bs ?_ ?_ hsame)
      · exact fun v hv f hf => ha f (.tuple hv hf)
      · exact fun v hv f hf => hb f (.tuple hv hf)
    | .map as, .map bs, _ =>
      refine congrArg _ (eq_of_sameEntries h as bs ?_ ?_ hsame)
      · exact fun entry hv f hf => ha f (.map hv hf)
      · exact fun entry hv f hf => hb f (.map hv hf)
    | .function f, .function g, _ =>
      exact congrArg _ (h (ha f .function) (hb g .function) (eq_of_beq hsame))
    | .builtin f, .builtin g, _ =>
      have hname := congrArg Builtin.ofName? (eq_of_beq hsame)
      rw [Builtin.ofName?_name, Builtin.ofName?_name] at hname
      exact congrArg _ (Option.some.inj hname)

theorem eq_of_sameAll (h : Set.InjOn Closure.serial functions) : (as bs : List Value) →
    (∀ a ∈ as, ∀ f, a.Holds f → f ∈ functions) → (∀ b ∈ bs, ∀ f, b.Holds f → f ∈ functions) →
      sameAll as bs = true → as = bs
  | [], [], _, _, _ => rfl
  | a :: as, b :: bs, ha, hb, hsame => by
    obtain ⟨ha, has⟩ := List.forall_mem_cons.1 ha
    obtain ⟨hb, hbs⟩ := List.forall_mem_cons.1 hb
    obtain ⟨hhead, htail⟩ := Bool.and_eq_true_iff.1 hsame
    rw [eq_of_same h a b ha hb hhead, eq_of_sameAll h as bs has hbs htail]

theorem eq_of_sameEntries (h : Set.InjOn Closure.serial functions) :
    (as bs : List (Key × Value)) → (∀ a ∈ as, ∀ f, a.2.Holds f → f ∈ functions) →
      (∀ b ∈ bs, ∀ f, b.2.Holds f → f ∈ functions) → sameEntries as bs = true → as = bs
  | [], [], _, _, _ => rfl
  | (j, a) :: as, (k, b) :: bs, ha, hb, hsame => by
    obtain ⟨ha, has⟩ := List.forall_mem_cons.1 ha
    obtain ⟨hb, hbs⟩ := List.forall_mem_cons.1 hb
    obtain ⟨hhead, htail⟩ := Bool.and_eq_true_iff.1 hsame
    obtain ⟨hkey, hvalue⟩ := Bool.and_eq_true_iff.1 hhead
    obtain ⟨-, hkey⟩ := Bool.and_eq_true_iff.1 hkey
    rw [Key.same_eq_true_iff.1 hkey, eq_of_same h a b ha hb hvalue,
      eq_of_sameEntries h as bs has hbs htail]

end

end

theorem Coherent.same_iff {values : Set Value} (h : Coherent values) {a b : Value}
    (ha : a ∈ values) (hb : b ∈ values) : a.same b = true ↔ a = b := by
  constructor
  · exact eq_of_same h a b (fun _ hf => ⟨a, ha, hf⟩) (fun _ hf => ⟨b, hb, hf⟩)
  · rintro rfl
    exact a.same_refl

theorem Coherent.same_eq {values : Set Value} (h : Coherent values) {a b : Value}
    (ha : a ∈ values) (hb : b ∈ values) : a.same b = decide (a = b) := by
  rw [Bool.eq_iff_iff, h.same_iff ha hb, decide_eq_true_iff]

/-! ### The operators -/

/-- Whether the sides are integers, texts or other values makes no difference to `==`. -/
theorem binary_eq (l r : Value) : binary .eq l r = .ok (.bool (decide (l = r))) := by
  cases l <;> cases r <;> simp [binary, integers, Int64.toInt_inj]

theorem binary_ne (l r : Value) : binary .ne l r = .ok (.bool (!decide (l = r))) := by
  cases l <;> cases r <;> simp [binary, integers, Int64.toInt_inj]

end Value

end Tang
