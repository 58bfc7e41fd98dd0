import HccastWired.Desktop.Profile
import HccastWired.Foundation.Rounding

/-!
# The place of the virtual output

The installed layout puts `HEADLESS-1` right of the enabled outputs, and so does the
adapter when streaming starts. Each has its own rule for the right edge of an output: the
layout rounds the logical width and starts from the origin, the adapter cuts its fraction
off and has no lower bound.
-/

namespace HccastWired.Desktop

open Foundation

structure OutputMode where
  width : Int
  height : Int
  refresh : Number
  current : Bool
  deriving DecidableEq

/-- An output as `wlr-randr --json` lists it: whole pixels, and a scale that is a number. -/
structure Output where
  name : String
  enabled : Bool
  modes : List OutputMode
  position : Option (Option Int × Option Int)
  transform : Option String
  scale : Option Number
  deriving DecidableEq

namespace Output

def x (o : Output) : Int := (o.position.bind Prod.fst).getD 0

def y (o : Output) : Int := (o.position.bind Prod.snd).getD 0

def transformName (o : Output) : String := o.transform.getD "normal"

/-- `output.get("scale", 1)`. -/
def scaleNumber (o : Output) : Number := o.scale.getD (.int 1)

def currentMode (o : Output) : Option OutputMode := o.modes.find? OutputMode.current

/-- `name.startswith(("HEADLESS-", "NOOP-"))`. -/
def isVirtual (o : Output) : Bool :=
  "HEADLESS-".toList.isPrefixOf o.name.toList || "NOOP-".toList.isPrefixOf o.name.toList

end Output

inductive OutputError
  | runtime (message : String)
  | value (message : String)
  | overflow
  | zeroDivision
  deriving DecidableEq

section Arithmetic

/-- A result as a `float`. -/
def ofResult (q : Rat) : Number :=
  if (2 : Rat) ^ 1024 ≤ |q| then .infinite (decide (q < 0)) else .float q

/-- `float(x)`. -/
def toFloat : Number → Except OutputError Number
  | .int n =>
      if (2 : Rat) ^ 1024 ≤ |roundBinary64 n| then .error .overflow else .ok (.float (roundBinary64 n))
  | x => .ok x

/-- `n / x`: an integer divides exactly before the result is rounded. -/
def divide (n : Int) : Number → Except OutputError Number
  | .int d =>
      if d = 0 then .error .zeroDivision
      else if (2 : Rat) ^ 1024 ≤ |roundBinary64 (n / d)| then .error .overflow
      else .ok (.float (roundBinary64 (n / d)))
  | .float s => do
      let dividend ← toFloat (.int n)
      if s = 0 then .error .zeroDivision
      else .ok (ofResult (roundBinary64 (dividend.toRat.getD 0 / s)))
  | .infinite _ => do
      let _ ← toFloat (.int n)
      .ok (.float 0)
  | .nan => do
      let _ ← toFloat (.int n)
      .ok .nan

/-- `round(x)` or `int(x)`, with the rule for the fraction. -/
def toInt (rule : Rat → Int) : Number → Except OutputError Int
  | .int n => .ok n
  | .float q => .ok (rule q)
  | .infinite _ => .error .overflow
  | .nan => .error (.value "cannot convert float NaN to integer")

/-- `int(q)`. -/
def cut (q : Rat) : Int := if q < 0 then q.ceil else q.floor

/-- `str(n)` has a limit. -/
def printed (n : Int) : Except OutputError String :=
  if Number.printable (.int n) then .ok (toString n)
  else .error (.value "Exceeds the limit (4300 digits) for integer string conversion")

end Arithmetic

section Formats

/-- So many digits of a number, with zeros before it. -/
def padded (width n : Nat) : String :=
  let digits := toString n
  String.ofList (List.replicate (width - digits.length) '0') ++ digits

/-- `f"{q:.6f}"` of a positive number. -/
def fixed6 (q : Rat) : String :=
  let n := (roundHalfEven (q * 1000000)).toNat
  toString (n / 1000000) ++ "." ++ padded 6 (n % 1000000)

/-- The power of ten at most a positive number, as its exponent. -/
def decimalExponent (q : Rat) : Int :=
  let guess : Int := ((Nat.toDigits 10 q.num.natAbs).length : Int) - (Nat.toDigits 10 q.den).length
  if (10 : Rat) ^ guess ≤ q then guess else guess - 1

/-- The text of a decimal fraction without the zeros at its end. -/
def trimmed (whole : String) (fraction : String) : String :=
  let kept := (fraction.toList.reverse.dropWhile (· = '0')).reverse
  if kept = [] then whole else whole ++ "." ++ String.ofList kept

/-- `f"{q:g}"` of a positive number below a million: six significant digits. -/
def general (q : Rat) : String :=
  let low := decimalExponent q
  let scaled := (roundHalfEven (q * (10 : Rat) ^ (5 - low))).toNat
  let exponent := if scaled = 1000000 then low + 1 else low
  let digits := if scaled = 1000000 then 100000 else scaled
  if -4 ≤ exponent then
    let unit := 10 ^ (5 - exponent).toNat
    trimmed (toString (digits / unit)) (padded (5 - exponent).toNat (digits % unit))
  else
    trimmed (toString (digits / 100000)) (padded 5 (digits % 100000)) ++ "e-" ++
      padded 2 (-exponent).toNat

end Formats

/-- The enabled outputs that `layout` has read, and the right edge so far. -/
structure Layout where
  lines : List String
  right : Int
  deriving DecidableEq

def transforms : List String :=
  ["normal", "90", "180", "270", "flipped", "flipped-90", "flipped-180", "flipped-270"]

/-- `re.fullmatch(r"[A-Za-z0-9_-]{1,40}", name)`. -/
def isConnectorName (name : String) : Bool :=
  1 ≤ name.length && name.length ≤ 40 &&
    name.toList.all fun c => c.isAlphanum || c = '_' || c = '-'

/-- `transform.endswith(("90", "270"))`. -/
def endsInQuarter (transform : String) : Bool :=
  "90".toList.isSuffixOf transform.toList || "270".toList.isSuffixOf transform.toList

def outputText (o : Output) (mode : OutputMode) (refresh scale : Number) : Except OutputError String := do
  .ok ("  output " ++ o.name ++ " enable mode " ++ (← printed mode.width) ++ "x" ++
    (← printed mode.height) ++ "@" ++ fixed6 (refresh.toRat.getD 0) ++ "Hz position " ++
    (← printed o.x) ++ "," ++ (← printed o.y) ++ " scale " ++ general (scale.toRat.getD 0) ++
    " transform " ++ o.transformName ++ "\n")

/-- The line of an output, and its right edge. -/
def outputLine (o : Output) (mode : OutputMode) (refresh scale : Number) :
    Except OutputError (String × Int) := do
  let logicalWidth := if endsInQuarter o.transformName then mode.height else mode.width
  let width ← toInt roundHalfEven (← divide logicalWidth scale)
  let line ← outputText o mode refresh scale
  .ok (line, o.x + width)

/-- A pass of the loop of `layout`. -/
def layoutOutput (l : Layout) (o : Output) : Except OutputError Layout :=
  if !o.enabled || o.isVirtual then .ok l
  else if !isConnectorName o.name then .error (.runtime "Unsupported output name")
  else match o.currentMode with
  | none => .error (.runtime "Enabled output has no current mode")
  | some mode => do
      let refresh ← toFloat mode.refresh
      let scale ← toFloat o.scaleNumber
      if o.transformName ∉ transforms ∨ !(Number.lt (.int 0) scale && scale.le (.int 4)) ∨
          !(Number.lt (.int 0) refresh && refresh.le (.int 1000)) then
        .error (.runtime "Unsupported output baseline")
      else do
        let (line, edge) ← outputLine o mode refresh scale
        .ok ⟨l.lines ++ [line], max l.right edge⟩

/-- `DesktopSetup.layout`: the lines, and the place of `HEADLESS-1` in the desktop profile. -/
def layout (outputs : List Output) : Except OutputError Layout := do
  let l ← outputs.foldlM layoutOutput ⟨[], 0⟩
  let _ ← printed l.right
  .ok l

def headlessLine (x : Int) : String :=
  "  output HEADLESS-1 enable mode --custom 1280x720@30Hz position " ++ toString x ++
    ",0 scale 2 transform normal\n"

/-- What `layout` returns. -/
def Layout.text (l : Layout) : String :=
  "\n# BEGIN PanelBridge managed output\n" ++
    "profile panelbridge_desktop \x7b\n" ++ String.join l.lines ++ headlessLine l.right ++ "\x7d\n" ++
    (if l.lines = [] then "" else "profile panelbridge_headless \x7b\n" ++ headlessLine 0 ++ "\x7d\n") ++
    "# END PanelBridge managed output\n"

/-- `re.fullmatch(stem + "-[0-9]+", name)`. -/
def matchesVirtual (stem : String) (name : String) : Bool :=
  let digits := name.toList.drop (stem.length + 1)
  (stem ++ "-").toList.isPrefixOf name.toList && digits ≠ [] && digits.all Char.isDigit

/-- An adapter with or without a configured output, which is a virtual one. -/
structure OutputAdapter where
  name : Option String
  valid : ∀ n ∈ name, matchesVirtual "HEADLESS" n = true ∨ matchesVirtual "NOOP" n = true

def OutputAdapter.select (a : OutputAdapter) (outputs : List Output) : Except OutputError String :=
  match a.name with
  | some name =>
      if outputs.any fun o => o.name = name then .ok name
      else .error (.runtime "Configured virtual output is missing")
  | none =>
      let headless := outputs.filter fun o => matchesVirtual "HEADLESS" o.name
      let candidates := if headless = [] then outputs.filter fun o => matchesVirtual "NOOP" o.name
        else headless
      match candidates with
      | [o] => .ok o.name
      | _ => .error (.runtime
          "One app virtual output is required; restart the desktop after installation")

/-- `_right_edge`. -/
def rightEdge (o : Output) : Except OutputError Int :=
  match o.currentMode with
  | none => .ok 0
  | some mode => do
      let width := if o.transform ∈ [some "90", some "270", some "flipped-90", some "flipped-270"]
        then mode.height else mode.width
      .ok (o.x + (← toInt cut (← divide width o.scaleNumber)))

/-- The largest number, or zero if there is none. -/
def maximum : List Int → Int
  | [] => 0
  | n :: rest => rest.foldl max n

/-- What `apply` asks of `wlr-randr`. -/
structure Placement where
  name : String
  width : Int
  height : Int
  scale : Number
  x : Int
  deriving DecidableEq

/-- `str` of a scale of a profile. -/
def scaleText : Number → String
  | .int n => toString n
  | .float q => trimmedOr (toString q.floor) (padded 2 ((q - q.floor) * 100).floor.toNat)
  | _ => ""
where
  trimmedOr (whole fraction : String) : String :=
    if fraction = "00" then whole ++ ".0" else trimmed whole fraction

def Placement.arguments (p : Placement) : List String :=
  ["/usr/bin/wlr-randr", "--output", p.name, "--on", "--custom-mode",
    toString p.width ++ "x" ++ toString p.height ++ "@30Hz", "--scale", scaleText p.scale,
    "--transform", "normal", "--pos", toString p.x ++ ",0"]

/-- `OutputAdapter.apply`. -/
def OutputAdapter.apply (a : OutputAdapter) (p : Profile) (outputs : List Output) :
    Except OutputError Placement := do
  if p.1.rotation ≠ 0 then
    .error (.value "Rotation is unavailable until rotated capture is verified")
  else do
    let name ← a.select outputs
    let edges ← (outputs.filter fun o => o.enabled ∧ o.name ≠ name).mapM rightEdge
    let _ ← printed (maximum edges)
    .ok ⟨name, p.1.sourceWidth, p.1.sourceHeight, p.1.scale, maximum edges⟩

/-- An enabled output that is not virtual. -/
def Output.isPhysical (o : Output) : Bool := o.enabled && !o.isVirtual

def Output.logicalWidth (o : Output) : Int :=
  match o.currentMode with
  | none => 0
  | some mode => if endsInQuarter o.transformName then mode.height else mode.width

/-- The right edge by the rounded quotient of the width and the scale. -/
def Output.roundedEdge (o : Output) : Int :=
  let quotient := (toFloat o.scaleNumber).bind (divide o.logicalWidth)
  o.x + ((quotient.bind (toInt roundHalfEven)).toOption.getD 0)

/-- The right edge by the quotient without its fraction. -/
def Output.cutEdge (o : Output) : Int :=
  o.x + (((divide o.logicalWidth o.scaleNumber).bind (toInt cut)).toOption.getD 0)

/-- The only virtual output is the adapter's own. -/
def SoleVirtual (outputs : List Output) (own : String) : Prop :=
  ∀ o ∈ outputs, o.isVirtual = true ↔ o.name = own

/-- Some output does not end left of the origin; one whose edge is rounded to the right has
another that reaches as far, and one that is rounded to the left is not the rightmost. -/
def EdgesAgree (outputs : List Output) : Prop :=
  (∃ o ∈ outputs, 0 ≤ o.cutEdge) ∧
    (∀ o ∈ outputs, o.cutEdge < o.roundedEdge → ∃ p ∈ outputs, o.roundedEdge ≤ p.cutEdge) ∧
    ∀ o ∈ outputs, o.roundedEdge < o.cutEdge →
      o.cutEdge ≤ 0 ∨ ∃ p ∈ outputs, o.cutEdge ≤ p.roundedEdge

section Edges

variable {o : Output} {l l' : Layout} {outputs : List Output} {n : Int} {x y : Number}

theorem bind_ok {α β ε : Type} {e : Except ε α} {f : α → Except ε β} {b : β}
    (h : e >>= f = .ok b) : ∃ a, e = .ok a ∧ f a = .ok b := by
  cases e with
  | error e => exact nomatch h
  | ok a => exact ⟨a, rfl, h⟩

theorem toInt_ok {rule : Rat → Int} (other : Rat → Int) (hx : toInt rule x = .ok n) : ∃ m, toInt other x = .ok m := by
  cases x with
  | int k => exact ⟨k, rfl⟩
  | float q => exact ⟨other q, rfl⟩
  | infinite b => exact nomatch hx
  | nan => exact nomatch hx

/-- A scale between the bounds is a finite positive number. -/
theorem positive_of_lt (hlow : Number.lt (.int 0) x = true) (hhigh : x.le (.int 4) = true) :
    (∃ k : Int, x = .int k ∧ 0 < k) ∨ ∃ s : Rat, x = .float s ∧ 0 < s := by
  cases x with
  | int k =>
    left
    have hpos : 0 ≤ k ∧ 0 < k := by simpa [Number.lt, Number.le, Number.toRat] using hlow
    exact ⟨k, rfl, hpos.2⟩
  | float s =>
    right
    have hpos : 0 ≤ s ∧ 0 < s := by simpa [Number.lt, Number.le, Number.toRat] using hlow
    exact ⟨s, rfl, hpos.2⟩
  | infinite b => cases b <;> simp [Number.lt, Number.le] at hlow hhigh
  | nan => simp [Number.le] at hhigh

theorem transform_cases (h : o.transformName ∈ transforms) :
    (o.transform ∈ [some "90", some "270", some "flipped-90", some "flipped-270"]) ↔
      endsInQuarter o.transformName = true := by
  unfold Output.transformName at h ⊢
  cases htransform : o.transform with
  | none => decide
  | some name =>
    rw [htransform, Option.getD_some] at h
    simp only [transforms, List.mem_cons, List.not_mem_nil, or_false] at h
    obtain rfl | rfl | rfl | rfl | rfl | rfl | rfl | rfl := h <;> decide

theorem finite_of_toFloat (h : toFloat (.int n) = .ok x) : |roundBinary64 n| < (2 : Rat) ^ 1024 := by
  unfold toFloat at h
  dsimp only at h
  split at h
  · exact nomatch h
  · next hlt => exact not_le.mp hlt

/-- A quotient by a positive integer is no larger than the number. -/
theorem divide_int {d : Int} (hd : 0 < d) (h : |roundBinary64 n| < (2 : Rat) ^ 1024) :
    divide n (.int d) = .ok (.float (roundBinary64 (n / d))) := by
  have hone : (1 : Rat) ≤ |(d : Rat)| := by
    rw [abs_of_pos (Int.cast_pos.mpr hd)]
    exact_mod_cast hd
  have hle : |(n : Rat) / d| ≤ |(n : Rat)| := by
    rw [abs_div]
    exact div_le_self (abs_nonneg _) hone
  have hfinite : ¬ (2 : Rat) ^ 1024 ≤ |roundBinary64 ((n : Rat) / d)| := by
    apply not_le.mpr
    refine lt_of_le_of_lt ?_ h
    rw [abs_roundBinary64, abs_roundBinary64]
    exact roundBinary64_mono hle
  rw [divide, if_neg hd.ne', if_neg hfinite]

/-- Where the layout has a quotient, so has the adapter. -/
theorem divide_scale {q : Number} {rule : Rat → Int} (hscale : toFloat x = .ok y)
    (hlow : Number.lt (.int 0) y = true) (hhigh : y.le (.int 4) = true)
    (hq : divide n y = .ok q) (hn : ∃ m, toInt rule q = .ok m) :
    ∃ r m, divide n x = .ok r ∧ toInt cut r = .ok m := by
  obtain ⟨m, hm⟩ := hn
  cases x with
  | int d =>
    have hd : 0 < d := by
      unfold toFloat at hscale
      dsimp only at hscale
      split at hscale
      · cases hscale
      · rw [← Except.ok.inj hscale] at hlow
        have hpos : 0 ≤ roundBinary64 d ∧ 0 < roundBinary64 d := by
          simpa [Number.lt, Number.le, Number.toRat] using hlow
        by_contra hneg
        have hmono : roundBinary64 d ≤ roundBinary64 0 :=
          roundBinary64_mono (Int.cast_nonpos.mpr (not_lt.mp hneg))
        rw [roundBinary64_zero] at hmono
        exact absurd hpos.2 hmono.not_gt
    have hfinite : |roundBinary64 n| < (2 : Rat) ^ 1024 := by
      obtain ⟨k, rfl, -⟩ | ⟨s, rfl, -⟩ := positive_of_lt hlow hhigh
      · unfold toFloat at hscale
        dsimp only at hscale
        split at hscale <;> cases hscale
      · obtain ⟨dividend, hdividend, -⟩ := bind_ok hq
        exact finite_of_toFloat hdividend
    exact ⟨_, _, divide_int hd hfinite, rfl⟩
  | float s =>
    rw [← Except.ok.inj hscale] at hq
    obtain ⟨m, hm⟩ := toInt_ok cut hm
    exact ⟨q, m, hq, hm⟩
  | infinite b =>
    rw [← Except.ok.inj hscale] at hlow hhigh
    obtain ⟨k, hk, -⟩ | ⟨s, hs, -⟩ := positive_of_lt hlow hhigh
    · cases hk
    · cases hs
  | nan =>
    rw [← Except.ok.inj hscale] at hlow hhigh
    obtain ⟨k, hk, -⟩ | ⟨s, hs, -⟩ := positive_of_lt hlow hhigh
    · cases hk
    · cases hs

theorem outputLine_ok {mode : OutputMode} {line : String} (h : outputLine o mode x y = .ok (line, n)) :
    ∃ q, divide (if endsInQuarter o.transformName then mode.height else mode.width) y = .ok q ∧
      ∃ width, toInt roundHalfEven q = .ok width ∧ n = o.x + width := by
  obtain ⟨q, hq, h⟩ := bind_ok h
  obtain ⟨width, hwidth, h⟩ := bind_ok h
  obtain ⟨text, -, h⟩ := bind_ok h
  exact ⟨q, hq, width, hwidth, (Prod.mk.inj (Except.ok.inj h)).2.symm⟩

/-- What a pass does to the right edge, and what the adapter has for the same output. -/
theorem layoutOutput_ok (h : layoutOutput l o = .ok l') :
    (o.isPhysical = false ∧ l' = l) ∨
      (o.isPhysical = true ∧ l'.right = max l.right o.roundedEdge ∧ rightEdge o = .ok o.cutEdge) := by
  unfold layoutOutput at h
  split at h
  · next hskip =>
    left
    rw [Output.isPhysical]
    refine ⟨?_, (Except.ok.inj h).symm⟩
    revert hskip
    cases o.enabled <;> cases o.isVirtual <;> decide
  · next hkeep =>
    right
    split at h
    · exact nomatch h
    · split at h
      · exact nomatch h
      · next mode hmode =>
        obtain ⟨refresh, hrefresh, h⟩ := bind_ok h
        obtain ⟨scale, hscale, h⟩ := bind_ok h
        split at h
        · exact nomatch h
        · next hbaseline =>
          simp only [not_or, not_not, Bool.not_eq_true', Bool.not_eq_false, Bool.and_eq_true] at hbaseline
          obtain ⟨htransform, ⟨hlow, hhigh⟩, -⟩ := hbaseline
          obtain ⟨⟨line, edge⟩, hline, h⟩ := bind_ok h
          obtain ⟨q, hq, width, hwidth, rfl⟩ := outputLine_ok hline
          have hlogical : o.logicalWidth =
              if endsInQuarter o.transformName then mode.height else mode.width := by
            rw [Output.logicalWidth, hmode]
          rw [← hlogical] at hq
          obtain ⟨r, m, hr, hm⟩ := divide_scale hscale hlow hhigh hq ⟨width, hwidth⟩
          have hrounded : o.roundedEdge = o.x + width := by
            simp only [Output.roundedEdge, hscale, hq, hwidth, Except.bind, Except.toOption, Option.getD_some]
          have hcut : o.cutEdge = o.x + m := by
            simp only [Output.cutEdge, hr, hm, Except.bind, Except.toOption, Option.getD_some]
          refine ⟨?_, ?_, ?_⟩
          · rw [Output.isPhysical]
            revert hkeep
            cases o.enabled <;> cases o.isVirtual <;> decide
          · rw [← Except.ok.inj h, hrounded]
          · rw [rightEdge, hmode]
            dsimp only
            rw [if_congr (transform_cases htransform) rfl rfl, ← hlogical, hr, hcut]
            change (toInt cut r).bind _ = _
            rw [hm]
            rfl

/-- The right edge of the layout, and the adapter's edges of the same outputs. -/
theorem foldlM_layoutOutput (h : outputs.foldlM layoutOutput l = .ok l') :
    l'.right = ((outputs.filter Output.isPhysical).map Output.roundedEdge).foldl max l.right ∧
      (outputs.filter Output.isPhysical).mapM rightEdge =
        .ok ((outputs.filter Output.isPhysical).map Output.cutEdge) := by
  induction outputs generalizing l with
  | nil =>
    rw [← Except.ok.inj h]
    exact ⟨rfl, rfl⟩
  | cons o outputs ih =>
    rw [List.foldlM_cons] at h
    obtain ⟨middle, hmiddle, h⟩ := bind_ok h
    obtain ⟨hright, hedges⟩ := ih h
    obtain ⟨hskip, rfl⟩ | ⟨hkeep, hnext, hedge⟩ := layoutOutput_ok hmiddle
    · rw [List.filter_cons_of_neg (by simp [hskip])]
      exact ⟨hright, hedges⟩
    · rw [List.filter_cons_of_pos hkeep, List.map_cons, List.map_cons, List.foldl_cons, ← hnext,
        List.mapM_cons, hedge, hedges]
      exact ⟨hright, rfl⟩

theorem printed_eq_ok {text : String} :
    printed n = .ok text ↔ Number.printable (.int n) = true ∧ text = toString n := by
  unfold printed
  split
  · next hprintable =>
    rw [Except.ok.injEq]
    exact ⟨fun h => ⟨hprintable, h.symm⟩, fun h => h.2.symm⟩
  · next hlong =>
    constructor
    · intro h
      exact nomatch h
    · intro h
      exact absurd h.1 hlong

theorem layout_ok (h : layout outputs = .ok l) :
    l.right = ((outputs.filter Output.isPhysical).map Output.roundedEdge).foldl max 0 ∧
      (outputs.filter Output.isPhysical).mapM rightEdge =
        .ok ((outputs.filter Output.isPhysical).map Output.cutEdge) ∧
      Number.printable (.int l.right) = true := by
  obtain ⟨result, hresult, h⟩ := bind_ok h
  obtain ⟨text, htext, h⟩ := bind_ok h
  rw [← Except.ok.inj h]
  obtain ⟨hright, hedges⟩ := foldlM_layoutOutput hresult
  exact ⟨hright, hedges, (printed_eq_ok.mp htext).1⟩

/-- Without another virtual output both look at the same outputs. -/
theorem filter_of_sole {own : String} (h : SoleVirtual outputs own) :
    (outputs.filter fun o => o.enabled ∧ o.name ≠ own) = outputs.filter Output.isPhysical := by
  apply List.filter_congr
  intro o ho
  have hown := h o ho
  rw [Output.isPhysical, Bool.eq_iff_iff, decide_eq_true_iff, Bool.and_eq_true, Bool.not_eq_true',
    ← Bool.not_eq_true, hown]

end Edges

section Maximum

variable {xs : List Int} {a b : Int}

theorem foldl_max_le_iff : xs.foldl max a ≤ b ↔ a ≤ b ∧ ∀ x ∈ xs, x ≤ b := by
  induction xs generalizing a with
  | nil => simp
  | cons x xs ih =>
    rw [List.foldl_cons, ih, max_le_iff, List.forall_mem_cons, and_assoc]

theorem le_foldl_max_iff : b ≤ xs.foldl max a ↔ b ≤ a ∨ ∃ x ∈ xs, b ≤ x := by
  induction xs generalizing a with
  | nil => simp
  | cons x xs ih =>
    rw [List.foldl_cons, ih, le_max_iff, List.exists_mem_cons_iff, or_assoc]

theorem maximum_le_iff (h : xs ≠ []) : maximum xs ≤ b ↔ ∀ x ∈ xs, x ≤ b := by
  cases xs with
  | nil => exact absurd rfl h
  | cons x xs => rw [maximum, foldl_max_le_iff, List.forall_mem_cons]

theorem le_maximum_iff (h : xs ≠ []) : b ≤ maximum xs ↔ ∃ x ∈ xs, b ≤ x := by
  cases xs with
  | nil => exact absurd rfl h
  | cons x xs => rw [maximum, le_foldl_max_iff, List.exists_mem_cons_iff]

end Maximum

/-- When the largest of the two kinds of edges is the same. -/
theorem edges_agree_iff (outputs : List Output) :
    maximum (outputs.map Output.cutEdge) = (outputs.map Output.roundedEdge).foldl max 0 ↔
      outputs = [] ∨ EdgesAgree outputs := by
  by_cases hnil : outputs = []
  · subst hnil
    exact ⟨fun _ => Or.inl rfl, fun _ => rfl⟩
  · have hne : outputs.map Output.cutEdge ≠ [] := by simpa using hnil
    rw [or_iff_right hnil, le_antisymm_iff, maximum_le_iff hne, foldl_max_le_iff, le_maximum_iff hne]
    simp only [List.mem_map, exists_exists_and_eq_and, le_foldl_max_iff,
      le_maximum_iff hne, forall_exists_index, and_imp, forall_apply_eq_imp_iff₂]
    rw [EdgesAgree, and_left_comm]
    apply and_congr_right
    intro horigin
    rw [and_comm]
    apply and_congr
    · constructor
      · intro h o ho _
        exact h o ho
      · intro h o ho
        obtain hlt | hle := lt_or_ge o.cutEdge o.roundedEdge
        · exact h o ho hlt
        · exact ⟨o, ho, hle⟩
    · constructor
      · intro h o ho _
        exact h o ho
      · intro h o ho
        obtain hlt | hle := lt_or_ge o.roundedEdge o.cutEdge
        · exact h o ho hlt
        · exact Or.inr ⟨o, ho, hle⟩

instance (outputs : List Output) : Decidable (EdgesAgree outputs) :=
  inferInstanceAs (Decidable (_ ∧ _ ∧ _))

instance (outputs : List Output) (own : String) : Decidable (SoleVirtual outputs own) :=
  inferInstanceAs (Decidable (∀ o ∈ outputs, _))

/-- The adapter places the virtual output where the layout has put it exactly when cutting the
fractions off the logical widths leaves the rightmost edge where rounding them does. -/
theorem layout_placement_agrees {a : OutputAdapter} {p : Profile} {outputs : List Output} {l : Layout}
    {own : String} (hlayout : layout outputs = .ok l) (hown : a.select outputs = .ok own)
    (hsole : SoleVirtual outputs own) (hrotation : p.1.rotation = 0) :
    (∃ placement, a.apply p outputs = .ok placement ∧ placement.x = l.right) ↔
      outputs.filter Output.isPhysical = [] ∨ EdgesAgree (outputs.filter Output.isPhysical) := by
  obtain ⟨hright, hedges, hprintable⟩ := layout_ok hlayout
  rw [← edges_agree_iff, ← hright]
  have happly : a.apply p outputs =
      printed (maximum ((outputs.filter Output.isPhysical).map Output.cutEdge)) >>= fun _ =>
        .ok ⟨own, p.1.sourceWidth, p.1.sourceHeight, p.1.scale,
          maximum ((outputs.filter Output.isPhysical).map Output.cutEdge)⟩ := by
    rw [OutputAdapter.apply, if_neg (not_not.mpr hrotation), hown]
    change ((outputs.filter fun o => o.enabled ∧ o.name ≠ own).mapM rightEdge).bind _ = _
    rw [filter_of_sole hsole, hedges, Except.bind]
  rw [happly]
  constructor
  · rintro ⟨placement, hplacement, hx⟩
    obtain ⟨text, -, hplacement⟩ := bind_ok hplacement
    rw [← Except.ok.inj hplacement] at hx
    exact hx
  · intro heq
    rw [heq, printed_eq_ok.mpr ⟨hprintable, rfl⟩]
    exact ⟨_, rfl, rfl⟩

def panelOutput : Output :=
  ⟨"HEADLESS-1", true, [⟨1280, 720, .float 0, true⟩], some (some 1280, some 0), some "normal",
    some (.float 2)⟩

/-- A monitor that is turned by a quarter, and the virtual output. -/
def turnedOutputs : List Output :=
  [⟨"HDMI-A-1", true, [⟨400, 1280, .float (59506 / 1000), true⟩], some (some 0, some 0), some "270",
    some (.int 1)⟩, panelOutput]

/-- A laptop's monitor with a scale that does not divide its width. -/
def scaledOutputs : List Output :=
  [⟨"eDP-1", true, [⟨1366, 768, .float 60, true⟩], some (some 0, some 0), some "normal",
    some (.float (3 / 2))⟩, panelOutput]

def unnamedAdapter : OutputAdapter := ⟨none, by simp⟩

example : (layout scaledOutputs).map Layout.text = .ok
    ("\n# BEGIN PanelBridge managed output\nprofile panelbridge_desktop \x7b\n" ++
      "  output eDP-1 enable mode 1366x768@60.000000Hz position 0,0 scale 1.5 transform normal\n" ++
      "  output HEADLESS-1 enable mode --custom 1280x720@30Hz position 911,0 scale 2 transform normal\n" ++
      "\x7d\nprofile panelbridge_headless \x7b\n" ++
      "  output HEADLESS-1 enable mode --custom 1280x720@30Hz position 0,0 scale 2 transform normal\n" ++
      "\x7d\n# END PanelBridge managed output\n") := by
  decide +kernel

theorem layout_placement_agrees_turned : ∃ l, layout turnedOutputs = .ok l ∧
    ∃ placement, unnamedAdapter.apply .default turnedOutputs = .ok placement ∧
      placement.x = l.right := by
  have hok : (layout turnedOutputs).isOk = true := by decide +kernel
  cases hlayout : layout turnedOutputs with
  | error e =>
    rw [hlayout] at hok
    exact absurd hok Bool.false_ne_true
  | ok l =>
    refine ⟨l, rfl, ?_⟩
    refine (@layout_placement_agrees _ _ _ _ "HEADLESS-1" hlayout ?_ ?_ rfl).mpr ?_
    · decide +kernel
    · decide +kernel
    · right
      decide +kernel

/-- The layout has the virtual output at 911, the adapter places it at 910. -/
theorem placement_differs_scaled : ∃ l, layout scaledOutputs = .ok l ∧
    unnamedAdapter.select scaledOutputs = .ok "HEADLESS-1" ∧ SoleVirtual scaledOutputs "HEADLESS-1" ∧
      ∃ placement, unnamedAdapter.apply .default scaledOutputs = .ok placement ∧
        placement.x ≠ l.right := by
  have hright : (layout scaledOutputs).map Layout.right = .ok 911 := by decide +kernel
  have hx : (unnamedAdapter.apply .default scaledOutputs).map Placement.x = .ok 910 := by
    decide +kernel
  cases hlayout : layout scaledOutputs with
  | error e =>
    rw [hlayout] at hright
    cases hright
  | ok l =>
    cases happly : unnamedAdapter.apply .default scaledOutputs with
    | error e =>
      rw [happly] at hx
      cases hx
    | ok placement =>
      rw [hlayout] at hright
      rw [happly] at hx
      refine ⟨l, rfl, by decide +kernel, by decide +kernel, placement, rfl, ?_⟩
      rw [Except.ok.inj hright, Except.ok.inj hx]
      decide

end HccastWired.Desktop
