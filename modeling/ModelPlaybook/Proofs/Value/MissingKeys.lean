import ModelPlaybook.Proofs.Failing
import ModelPlaybook.Value.Operation

/-!
# Missing keys

Of the operators on values only one looks something up under a key: filling a text or a run of
bytes, of which the directives name keys of the argument.  No other operator fails because of a
missing key.
-/

namespace ModelPlaybook

variable {α β : Type}

/-- A computation that does not fail because of a missing key. -/
def MissesNoKey (x : Except Fault α) : Prop :=
  FailsOnly (fun fault => fault.kind ≠ .key) x

namespace MissesNoKey

theorem ok (a : α) : MissesNoKey (.ok a) :=
  FailsOnly.ok a

theorem error {fault : Fault} (hkind : fault.kind ≠ .key) :
    MissesNoKey (.error fault : Except Fault α) :=
  FailsOnly.error hkind

theorem bind {x : Except Fault α} {f : α → Except Fault β} (hx : MissesNoKey x)
    (hf : ∀ a, MissesNoKey (f a)) : MissesNoKey (x >>= f) :=
  FailsOnly.bind hx hf

theorem ite {c : Prop} [Decidable c] {x y : Except Fault α} (hx : MissesNoKey x)
    (hy : MissesNoKey y) : MissesNoKey (if c then x else y) := by
  split
  · exact hx
  · exact hy

end MissesNoKey

/-! ## Numbers -/

namespace Number

theorem missesNoKey_floatOfInt (n : Int) : MissesNoKey (floatOfInt n) :=
  .ite (.ok _) (.error (by rintro ⟨⟩))

theorem missesNoKey_quotient (a b : Int) : MissesNoKey (quotient a b) :=
  .ite (.error (by rintro ⟨⟩)) (.ite (.ok _) (.error (by rintro ⟨⟩)))

theorem missesNoKey_liftDecimal (r : Except DecimalSignal Decimal) :
    MissesNoKey (liftDecimal r) := by
  cases r with
  | ok d => exact .ok _
  | error s => exact .error (by rintro ⟨⟩)

theorem missesNoKey_combine {symbol : String} {onInts : Int → Int → Except Fault Number}
    {onFloats : Binary64 → Binary64 → Except Fault Number}
    {onDecimals : Decimal → Decimal → Except DecimalSignal Decimal}
    (hints : ∀ a b, MissesNoKey (onInts a b)) (hfloats : ∀ a b, MissesNoKey (onFloats a b))
    (x y : Number) : MissesNoKey (combine symbol onInts onFloats onDecimals x y) := by
  cases x with
  | int a =>
      cases y with
      | int b => exact hints a b
      | float b => exact (missesNoKey_floatOfInt a).bind fun a => hfloats a b
      | decimal b => exact missesNoKey_liftDecimal _
  | float a =>
      cases y with
      | int b => exact (missesNoKey_floatOfInt b).bind fun b => hfloats a b
      | float b => exact hfloats a b
      | decimal b => exact .error (by rintro ⟨⟩)
  | decimal a =>
      cases y with
      | int b => exact missesNoKey_liftDecimal _
      | float b => exact .error (by rintro ⟨⟩)
      | decimal b => exact missesNoKey_liftDecimal _

theorem missesNoKey_add (x y : Number) : MissesNoKey (x.add y) :=
  missesNoKey_combine (fun _ _ => .ok _) (fun _ _ => .ok _) x y

theorem missesNoKey_sub (x y : Number) : MissesNoKey (x.sub y) :=
  missesNoKey_combine (fun _ _ => .ok _) (fun _ _ => .ok _) x y

theorem missesNoKey_mul (x y : Number) : MissesNoKey (x.mul y) :=
  missesNoKey_combine (fun _ _ => .ok _) (fun _ _ => .ok _) x y

theorem missesNoKey_div (x y : Number) : MissesNoKey (x.div y) :=
  missesNoKey_combine (fun a b => (missesNoKey_quotient a b).bind fun _ => .ok _)
    (fun _ _ => .ite (.error (by rintro ⟨⟩)) (.ok _)) x y

theorem missesNoKey_floorDiv (x y : Number) : MissesNoKey (x.floorDiv y) :=
  missesNoKey_combine (fun _ _ => .ite (.error (by rintro ⟨⟩)) (.ok _))
    (fun _ _ => .ite (.error (by rintro ⟨⟩)) (.ok _)) x y

theorem missesNoKey_modulo (x y : Number) : MissesNoKey (x.modulo y) :=
  missesNoKey_combine (fun _ _ => .ite (.error (by rintro ⟨⟩)) (.ok _))
    (fun _ _ => .ite (.error (by rintro ⟨⟩)) (.ok _)) x y

theorem missesNoKey_floatPower (x y : Binary64) : MissesNoKey (floatPower x y) := by
  unfold floatPower
  dsimp only
  repeat' split
  all_goals first
    | exact .ok _
    | exact .error (by rintro ⟨⟩)

theorem missesNoKey_wholePower (a : Int) (n : Nat) : MissesNoKey (wholePower a n) :=
  .ite (.ok _) (.ite (.error (by rintro ⟨⟩)) (.ok _))

theorem missesNoKey_power (x y : Number) : MissesNoKey (x.power y) := by
  have hfloats : ∀ a b, MissesNoKey (do pure (ofPowerResult (← floatPower a b))) := by
    intro a b
    exact (missesNoKey_floatPower a b).bind fun _ => .ok _
  have hrest : ∀ x y : Number, MissesNoKey (do
      pure (Power.number (← combine "** or pow()" (fun a _ => .ok (.int a))
        (fun a _ => .ok (.float a)) standardContext.pow x y))) := by
    intro x y
    exact (missesNoKey_combine (fun _ _ => .ok _) (fun _ _ => .ok _) x y).bind fun _ => .ok _
  cases x with
  | int a =>
      cases y with
      | int b =>
          refine .ite ?_ ?_
          · exact (missesNoKey_wholePower a b.toNat).bind fun _ => .ok _
          · exact (missesNoKey_floatOfInt a).bind fun a =>
              (missesNoKey_floatOfInt b).bind fun b => hfloats a b
      | float b => exact (missesNoKey_floatOfInt a).bind fun a => hfloats a b
      | decimal b => exact hrest _ _
  | float a =>
      cases y with
      | int b => exact (missesNoKey_floatOfInt b).bind fun b => hfloats a b
      | float b => exact hfloats a b
      | decimal b => exact hrest _ _
  | decimal a => exact hrest _ _

end Number

theorem missesNoKey_of_bitOperation? {op : BinaryOperator} {a b : Int} {r : Except Fault Int}
    (hr : bitOperation? op a b = some r) : MissesNoKey r := by
  cases op with
  | shiftLeft =>
      obtain rfl := Option.some.inj hr
      exact .ite (.error (by rintro ⟨⟩)) (.ite (.ok _) (.ite (.error (by rintro ⟨⟩)) (.ok _)))
  | shiftRight =>
      obtain rfl := Option.some.inj hr
      exact .ite (.error (by rintro ⟨⟩)) (.ok _)
  | bitAnd | bitOr | bitXor =>
      obtain rfl := Option.some.inj hr
      exact .ok _
  | _ => cases hr

theorem missesNoKey_of_onNumbers? {op : BinaryOperator} {x y : Number} {r : Except Fault Value}
    (hr : op.onNumbers? x y = some r) : MissesNoKey r := by
  unfold BinaryOperator.onNumbers? at hr
  split at hr
  · cases hr
  · split at hr
    · obtain rfl := Option.some.inj hr
      exact (Number.missesNoKey_add x y).bind fun _ => .ok _
    · obtain rfl := Option.some.inj hr
      exact (Number.missesNoKey_sub x y).bind fun _ => .ok _
    · obtain rfl := Option.some.inj hr
      exact (Number.missesNoKey_mul x y).bind fun _ => .ok _
    · obtain rfl := Option.some.inj hr
      exact (Number.missesNoKey_div x y).bind fun _ => .ok _
    · obtain rfl := Option.some.inj hr
      exact (Number.missesNoKey_floorDiv x y).bind fun _ => .ok _
    · obtain rfl := Option.some.inj hr
      exact (Number.missesNoKey_modulo x y).bind fun _ => .ok _
    · obtain rfl := Option.some.inj hr
      refine (Number.missesNoKey_power x y).bind fun p => ?_
      cases p <;> exact .ok _
    · split at hr
      · obtain ⟨r', hr', rfl⟩ := Option.map_eq_some_iff.mp hr
        exact (missesNoKey_of_bitOperation? hr').bind fun _ => .ok _
      · cases hr

/-! ## The calendar -/

theorem missesNoKey_checked (d : Duration) : MissesNoKey d.checked :=
  .ite (.ok _) (.ite (.error (by rintro ⟨⟩)) (.error (by rintro ⟨⟩)))

theorem missesNoKey_ratio (x : Binary64) : MissesNoKey (Duration.ratio x) := by
  cases x with
  | finite negative m e => exact .ok _
  | infinite negative => exact .error (by rintro ⟨⟩)
  | nan origin => exact .error (by rintro ⟨⟩)

theorem missesNoKey_shiftMoment (t : DateTime) (micros : Int) :
    MissesNoKey (shiftMoment t micros) := by
  unfold shiftMoment
  split
  · exact .ok _
  · exact .error (by rintro ⟨⟩)

theorem missesNoKey_shiftDay (d : Date) (days : Int) : MissesNoKey (shiftDay d days) := by
  unfold shiftDay
  split
  · exact .ok _
  · exact .error (by rintro ⟨⟩)

theorem missesNoKey_of_scaled? {x : Duration} {b : Scalar} {r : Except Fault Scalar}
    (hr : BinaryOperator.onCalendar?.scaled? x b = some r) : MissesNoKey r := by
  unfold BinaryOperator.onCalendar?.scaled? at hr
  split at hr
  · obtain rfl := Option.some.inj hr
    exact (missesNoKey_ratio _).bind fun _ => missesNoKey_checked _
  · obtain ⟨n, -, rfl⟩ := Option.map_eq_some_iff.mp hr
    exact missesNoKey_checked _

theorem missesNoKey_of_onCalendar? {op : BinaryOperator} {a b : Scalar} {r : Except Fault Scalar}
    (hr : op.onCalendar? a b = some r) : MissesNoKey r := by
  unfold BinaryOperator.onCalendar? at hr
  split at hr
  -- Most cases shift a day or a moment, or check a duration.
  all_goals first
    | exact missesNoKey_of_scaled? hr
    | obtain rfl := Option.some.inj hr
      first
        | exact missesNoKey_shiftDay _ _
        | exact missesNoKey_shiftMoment _ _
        | exact missesNoKey_checked _
        | skip
    | skip
  · exact .ite (missesNoKey_checked _) (.error (by rintro ⟨⟩))
  · exact .ite (.error (by rintro ⟨⟩)) ((Number.missesNoKey_quotient _ _).bind fun _ => .ok _)
  · exact (missesNoKey_ratio _).bind fun _ =>
      .ite (.error (by rintro ⟨⟩)) (missesNoKey_checked _)
  · obtain ⟨n, -, rfl⟩ := Option.map_eq_some_iff.mp hr
    exact .ite (.error (by rintro ⟨⟩)) (missesNoKey_checked _)
  · exact .ite (.error (by rintro ⟨⟩)) (.ok _)
  · obtain ⟨n, -, rfl⟩ := Option.map_eq_some_iff.mp hr
    exact .ite (.error (by rintro ⟨⟩)) (missesNoKey_checked _)
  · exact .ite (.error (by rintro ⟨⟩)) (.ok _)
  · cases hr

theorem missesNoKey_of_onScalars? {op : BinaryOperator} {a b : Scalar} {r : Except Fault Value}
    (hr : op.onScalars? a b = some r) : MissesNoKey r := by
  unfold BinaryOperator.onScalars? at hr
  split at hr
  · split at hr
    · obtain rfl := Option.some.inj hr
      exact .ok _
    · obtain rfl := Option.some.inj hr
      exact .ok _
    · obtain rfl := Option.some.inj hr
      exact .ok _
    · exact missesNoKey_of_onNumbers? hr
  · obtain ⟨r', hr', rfl⟩ := Option.map_eq_some_iff.mp hr
    exact (missesNoKey_of_onCalendar? hr').bind fun _ => .ok _

/-! ## Sequences -/

theorem missesNoKey_repeatCount (n : Int) : MissesNoKey (repeatCount n) :=
  .ite (.ok _) (.ite (.ok _) (.error (by rintro ⟨⟩)))

namespace Value

theorem missesNoKey_iterate (v : Value) : MissesNoKey v.iterate := by
  cases v with
  | scalar s =>
      cases s with
      | text t => exact .ok _
      | _ => exact .error (by rintro ⟨⟩)
  | «foreign» name origin => exact .error (by rintro ⟨⟩)
  | _ => exact .ok _

theorem missesNoKey_concatenate (app : Application) (x y : Value) :
    MissesNoKey (x.concatenate app y) := by
  unfold concatenate
  split
  all_goals first
    | exact .ok _
    | exact .error (by rintro ⟨⟩)
    | exact .ite ((missesNoKey_iterate y).bind fun _ => .ok _) (.error (by rintro ⟨⟩))

theorem missesNoKey_multiply (app : Application) (x y : Value) :
    MissesNoKey (x.multiply app y) := by
  unfold multiply
  refine .ite ?_ (.ite ?_ (.error (by rintro ⟨⟩)))
  · cases y.index? with
    | none => exact .error (by rintro ⟨⟩)
    | some n => exact (missesNoKey_repeatCount n).bind fun _ => .ok _
  · cases x.index? with
    | none => exact .error (by rintro ⟨⟩)
    | some n => exact (missesNoKey_repeatCount n).bind fun _ => .ok _

end Value

/-! ## Filled texts -/

namespace Format

theorem missesNoKey_fillUp (d : Directive) (zeros : Bool) (sign mark body : List Char) :
    MissesNoKey (d.fillUp zeros sign mark body) :=
  .ite (.error (by rintro ⟨⟩)) (.ite (.ok _) (.ite (.ok _) (.ok _)))

theorem missesNoKey_layOutText (d : Directive) (body : List Char) :
    MissesNoKey (d.layOutText body) :=
  missesNoKey_fillUp d _ _ _ _

theorem missesNoKey_layOutWhole (d : Directive) (base : Nat) (mark : List Char) (n : Int) :
    MissesNoKey (d.layOutWhole base mark n) :=
  .ite (.error (by rintro ⟨⟩)) (.ite (.error (by rintro ⟨⟩)) (missesNoKey_fillUp d _ _ _ _))

theorem missesNoKey_layOutReal (d : Directive) (x : Binary64) : MissesNoKey (d.layOutReal x) := by
  cases x <;> exact missesNoKey_fillUp d _ _ _ _

theorem missesNoKey_cutArgument (d : Directive) (v : Value) : MissesNoKey (d.cutArgument v) := by
  unfold Directive.cutArgument
  repeat' split
  all_goals first
    | exact .ok _
    | exact .error (by rintro ⟨⟩)

theorem missesNoKey_wholeArgument (d : Directive) (v : Value) :
    MissesNoKey (d.wholeArgument v) := by
  unfold Directive.wholeArgument
  split
  · exact .ok _
  · exact .ok _
  · exact .error (by rintro ⟨⟩)

theorem missesNoKey_realArgument (medium : Medium) (v : Value) :
    MissesNoKey (medium.realArgument v) := by
  have hreal : MissesNoKey (Format.realArgument v) := by
    unfold Format.realArgument
    repeat' split
    all_goals first
      | exact .ok _
      | exact .ite (.ok _) (.error (by rintro ⟨⟩))
      | exact .error (by rintro ⟨⟩)
  unfold Medium.realArgument
  split
  · exact .error (by rintro ⟨⟩)
  · exact hreal

theorem missesNoKey_charArgument (medium : Medium) (v : Value) :
    MissesNoKey (medium.charArgument v) := by
  cases medium with
  | text =>
      simp only [Medium.charArgument, Format.charArgument]
      repeat' split
      all_goals first
        | exact .ok _
        | exact .error (by rintro ⟨⟩)
  | bytes =>
      simp only [Medium.charArgument, byteArgument]
      repeat' split
      all_goals first
        | exact .ok _
        | exact .error (by rintro ⟨⟩)

theorem missesNoKey_contentArgument (v : Value) : MissesNoKey (contentArgument v) := by
  cases v <;> first
    | exact .ok _
    | exact .error (by rintro ⟨⟩)

theorem kind_of_writeFault? {v : Value} {f : Fault} (hf : v.writeFault? = some f) :
    f.kind ≠ .key := by
  rcases Value.writeFault?_cases v hf with rfl | ⟨name, rfl⟩ <;> rintro ⟨⟩

theorem missesNoKey_writePlain (v : Value) : MissesNoKey v.writePlain := by
  unfold Value.writePlain
  split
  · exact .ok _
  · rename_i f hf
    exact .error (kind_of_writeFault? hf)

theorem missesNoKey_writeShown (v : Value) : MissesNoKey v.writeShown := by
  unfold Value.writeShown
  split
  · exact .ok _
  · rename_i f hf
    exact .error (kind_of_writeFault? hf)

theorem missesNoKey_render (medium : Medium) (d : Directive) (form : Form) (v : Value) :
    MissesNoKey (render Value.argumentSource medium d form v) := by
  cases form with
  | plain => exact (missesNoKey_writePlain v).bind fun _ => missesNoKey_layOutText d _
  | shown => exact (missesNoKey_writeShown v).bind fun _ => missesNoKey_layOutText d _
  | ascii => exact (missesNoKey_writeShown v).bind fun _ => missesNoKey_layOutText d _
  | content => exact (missesNoKey_contentArgument v).bind fun _ => missesNoKey_layOutText d _
  | char => exact (missesNoKey_charArgument medium v).bind fun _ => missesNoKey_fillUp d _ _ _ _
  | cut => exact (missesNoKey_cutArgument d v).bind fun _ => missesNoKey_layOutWhole d _ _ _
  | whole base mark =>
      exact (missesNoKey_wholeArgument d v).bind fun _ => missesNoKey_layOutWhole d _ _ _
  | real => exact (missesNoKey_realArgument medium v).bind fun _ => missesNoKey_layOutReal d _

/-- A computation that misses a key, if at all, because a value has no item under it. -/
structure MissesIn (v : Value) (Q : α → Prop) (r : Except Fault α) : Prop where
  fails : ∀ fault, r = .error fault → fault.kind = .key → ∃ key, v.itemUnder key = .error fault
  gives : ∀ a, r = .ok a → Q a

namespace MissesIn

variable {v : Value} {Q : α → Prop}

theorem ok {a : α} (ha : Q a) : MissesIn v Q (.ok a) where
  fails := by rintro fault ⟨⟩
  gives := by
    rintro a' ⟨⟩
    exact ha

theorem error {fault : Fault} (hkind : fault.kind ≠ .key) :
    MissesIn v Q (.error fault : Except Fault α) where
  fails := by
    rintro fault' ⟨⟩ hkey
    exact absurd hkey hkind
  gives := by rintro a ⟨⟩

theorem of_missesNoKey {r : Except Fault α} (hr : MissesNoKey r) :
    MissesIn v (fun _ => True) r where
  fails fault hfault hkey := absurd hkey (hr fault hfault)
  gives _ _ := trivial

theorem bind {x : Except Fault α} {f : α → Except Fault β} {R : β → Prop} (hx : MissesIn v Q x)
    (hf : ∀ a, Q a → MissesIn v R (f a)) : MissesIn v R (x >>= f) where
  fails fault h hkey := by
    rcases bind_eq_error.mp h with h | ⟨a, ha, h⟩
    · exact hx.fails fault h hkey
    · exact (hf a (hx.gives a ha)).fails fault h hkey
  gives b h := by
    obtain ⟨a, ha, hb⟩ := bind_eq_ok.mp h
    exact (hf a (hx.gives a ha)).gives b hb

end MissesIn

/-- Arguments by key are looked up in a given value only. -/
def Arguments.LooksIn (v : Value) (a : Arguments Value) : Prop :=
  ∀ mapping ∈ a.mapping, mapping = v

theorem missesIn_ofObject (medium : Medium) (v : Value) :
    MissesIn v (Arguments.LooksIn v) (Arguments.ofObject Value.argumentSource medium v) := by
  unfold Arguments.ofObject
  split
  · exact .ok (by rintro mapping ⟨⟩)
  · have hvalue : ∀ w : Value, Value.argumentSource.value w = .ok w := fun _ => rfl
    obtain ⟨b, hb⟩ : ∃ b, Value.argumentSource.isMapping v = .ok b := by
      cases v <;> exact ⟨_, rfl⟩
    rw [hvalue, hb]
    refine .ok ?_
    intro mapping hmapping
    simp only [Option.mem_def, Option.ite_none_right_eq_some, Option.some.injEq] at hmapping
    exact hmapping.2.symm

theorem missesIn_next {v : Value} {a : Arguments Value} (ha : a.LooksIn v) :
    MissesIn v (fun r => r.2.LooksIn v) (a.next Value.argumentSource) := by
  unfold Arguments.next
  split
  · exact .error (by rintro ⟨⟩)
  · exact .ok ha

theorem missesIn_readAmount {v : Value} {a : Arguments Value} (ha : a.LooksIn v) (bound : Nat)
    (tooBig bigArgument : String) (cs : List Char) :
    MissesIn v (fun r => r.2.1.LooksIn v)
      (readAmount Value.argumentSource bound tooBig bigArgument a cs) := by
  unfold readAmount
  split
  · refine (missesIn_next ha).bind fun r hr => ?_
    obtain ⟨x, a⟩ := r
    have hwithin : ∀ (n : Int) (rest : List Char), MissesIn v (fun r => r.2.1.LooksIn v) (
        if n < -(bound : Int) - 1 ∨ (bound : Int) < n then
          .error ⟨.overflow, "Python int too large to convert to C " ++ bigArgument⟩
        else pure (Amount.argument n, a, rest)) := by
      intro n rest
      split
      · exact .error (by rintro ⟨⟩)
      · exact .ok hr
    refine (MissesIn.of_missesNoKey (MissesNoKey.ok x)).bind fun w _ => ?_
    dsimp only
    split
    · exact hwithin _ _
    · exact hwithin _ _
    · exact .error (by rintro ⟨⟩)
  · dsimp only
    split
    · exact .ok ha
    · split
      · exact .error (by rintro ⟨⟩)
      · exact .ok ha

theorem missesIn_readKeyed {v : Value} {a : Arguments Value} (ha : a.LooksIn v) (medium : Medium)
    (cs : List Char) :
    MissesIn v (fun r => r.1.LooksIn v) (readKeyed Value.argumentSource medium a cs) := by
  unfold readKeyed
  split
  · split
    · exact .error (by rintro ⟨⟩)
    next mapping hmapping =>
      obtain rfl := ha mapping hmapping
      split
      · exact .error (by rintro ⟨⟩)
      next key rest hkey =>
        have hitem : MissesIn mapping (fun _ => True)
            (Value.argumentSource.item mapping (medium.keyOf key)) :=
          ⟨fun fault hfault _ => ⟨_, hfault⟩, fun _ _ => trivial⟩
        exact hitem.bind fun _ _ => .ok ha
  · exact .ok ha

theorem unknownLetter_kind_ne_key (medium : Medium) (letter : Char) (index : Nat)
    (behindNumber : Bool) : (medium.unknownLetter letter index behindNumber).kind ≠ .key := by
  unfold Medium.unknownLetter
  dsimp only
  split <;> rintro ⟨⟩

theorem missesIn_fillOne {v : Value} {a : Arguments Value} (ha : a.LooksIn v) (medium : Medium)
    (length : Nat) (cs : List Char) :
    MissesIn v (fun r => r.2.1.LooksIn v) (fillOne Value.argumentSource medium length a cs) := by
  unfold fillOne
  split
  · exact .ok ha
  · refine (missesIn_readKeyed ha medium _).bind fun r hr => ?_
    refine (missesIn_readAmount hr _ _ _ _).bind fun r hr => ?_
    obtain ⟨width, a, cs⟩ := r
    dsimp -zeta only
    extract_lets d rest
    have hrest : ∀ r, r.2.1.LooksIn v → MissesIn v (fun r => r.2.1.LooksIn v) (rest r) := by
      intro r hr
      simp only [rest]
      split
      · exact .error (by rintro ⟨⟩)
      · refine (missesIn_next hr).bind fun r hr => ?_
        split
        · exact (MissesIn.of_missesNoKey (missesNoKey_render _ _ _ _)).bind fun _ _ => .ok hr
        · exact .error (unknownLetter_kind_ne_key _ _ _ _)
    split
    · exact (missesIn_readAmount hr _ _ _ _).bind fun r hr =>
        MissesIn.bind (.ok (by exact hr)) hrest
    · exact MissesIn.bind (.ok (by exact hr)) hrest

theorem missesIn_fillAll {v : Value} {a : Arguments Value} (ha : a.LooksIn v) (medium : Medium)
    (length fuel : Nat) (done cs : List Char) :
    MissesIn v (fun _ => True) (fillAll Value.argumentSource medium length fuel a done cs) := by
  fun_induction fillAll with
  | case1 => exact .ok trivial
  | case2 => exact .ok trivial
  | case3 fuel a done rest ih =>
      refine (missesIn_fillOne ha medium length rest).bind fun r hr => ?_
      exact ih _ _ _ hr
  | case4 fuel a done c rest hc ih => exact ih ha

theorem missesIn_fill (medium : Medium) (cs : List Char) (v : Value) :
    MissesIn v (fun _ => True) (fill Value.argumentSource medium cs v) := by
  refine (missesIn_ofObject medium v).bind fun a ha => ?_
  refine (missesIn_fillAll ha medium _ _ [] cs).bind fun r _ => ?_
  obtain ⟨done, a⟩ := r
  dsimp only
  split
  · exact .ok trivial
  · cases medium <;> exact .error (by rintro ⟨⟩)

/-- Filling a text fails because of a key only if the argument has no item under it. -/
theorem missesIn_fillText (s : String) (v : Value) :
    MissesIn v (fun _ => True) (fillText Value.argumentSource s v) :=
  (missesIn_fill .text s.toList v).bind fun _ _ => .ok trivial

theorem missesIn_fillBytes (content : List UInt8) (v : Value) :
    MissesIn v (fun _ => True) (fillBytes Value.argumentSource content v) :=
  (missesIn_fill .bytes _ v).bind fun _ _ => .ok trivial

end Format

/-! ## Operators -/

namespace Application

/-- What an operator that fails because of a key did: it filled a text or a run of bytes, of which
a directive names a key that the argument has no item under. -/
structure LacksItem (app : Application) (target v : Value) (fault : Fault) : Prop where
  operator : app.operator = .mod
  target : (∃ s, target = .text s) ∨ ∃ content, target = .bytes content
  item : ∃ key, v.itemUnder key = .error fault

variable {app : Application} {target v : Value}

/-- A computation that fails because of a key only where an operator lacks an item. -/
def MissesItem (app : Application) (target v : Value) (r : Except Fault Value) : Prop :=
  FailsOnly (fun fault => fault.kind = .key → app.LacksItem target v fault) r

theorem missesItem_of_missesNoKey {r : Except Fault Value} (hr : MissesNoKey r) :
    MissesItem app target v r :=
  fun fault hfault hkey => absurd hkey (hr fault hfault)

theorem missesItem_of_missesIn {r : Except Fault Value} (hop : app.operator = .mod)
    (htarget : (∃ s, target = .text s) ∨ ∃ content, target = .bytes content)
    (hr : Format.MissesIn v (fun _ => True) r) : MissesItem app target v r :=
  fun fault hfault hkey => ⟨hop, htarget, hr.fails fault hfault hkey⟩

theorem missesItem_getD {r? : Option (Except Fault Value)} {r : Except Fault Value}
    (hr? : ∀ r, r? = some r → MissesNoKey r) (hr : MissesItem app target v r) :
    MissesItem app target v (r?.getD r) := by
  cases r? with
  | none => exact hr
  | some r' => exact missesItem_of_missesNoKey (hr? r' rfl)

theorem missesItem_apply (app : Application) (target v : Value) :
    MissesItem app target v (app.apply target v) := by
  unfold apply
  extract_lets otherwise
  have hother : MissesItem app target v otherwise := by
    simp only [otherwise]
    split
    · exact missesItem_of_missesNoKey (Value.missesNoKey_concatenate app target v)
    · exact missesItem_of_missesNoKey (Value.missesNoKey_multiply app target v)
    next hop =>
      split
      next s =>
        exact missesItem_of_missesIn hop (.inl ⟨s, rfl⟩)
          ((Format.missesIn_fillText s v).bind fun _ _ => .ok trivial)
      next content =>
        exact missesItem_of_missesIn hop (.inr ⟨content, rfl⟩)
          ((Format.missesIn_fillBytes content v).bind fun _ _ => .ok trivial)
      · exact missesItem_of_missesNoKey (.error (by rintro ⟨⟩))
    · exact missesItem_of_missesNoKey (.error (by rintro ⟨⟩))
  have hsets : ∀ (f : List Value → Value) (xs ys : List Value) (r : Except Fault Value),
      (app.operator.onSets? xs ys).map (.ok ∘ f) = some r → MissesNoKey r := by
    intro f xs ys r hr
    obtain ⟨items, -, rfl⟩ := Option.map_eq_some_iff.mp hr
    exact .ok _
  split
  · exact missesItem_getD (fun r hr => missesNoKey_of_onScalars? hr) hother
  · exact missesItem_getD (hsets _ _ _) hother
  · exact missesItem_getD (hsets _ _ _) hother
  · exact missesItem_getD (hsets _ _ _) hother
  · exact missesItem_getD (hsets _ _ _) hother
  · split
    · exact missesItem_of_missesNoKey (.ok _)
    · exact hother
  · exact hother

end Application

end ModelPlaybook
