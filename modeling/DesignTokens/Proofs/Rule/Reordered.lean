/-
# DesignTokens.Proofs.Rule.Reordered -- rules do not look at the order of members

A rule reads an object by its keys.  The verdicts on reordered values -- which rule finds something
where, and how severe it is -- are therefore the same (`TokenType.orderless_check`).  The texts of a
finding and the values it shows may differ, for they may quote an object.

`SameVerdicts` leaves the order of the findings open as well.  At one value it is kept; in a document
it is that of the members.
-/
import DesignTokens.Proofs.Json.Reordered
import DesignTokens.Rule.Composite

namespace DesignTokens

set_option autoImplicit false

/-- A finding without its texts and values: which rule made it, where, and how severe it is. -/
def Diagnostic.verdict (d : Diagnostic) : Option String × String × Severity :=
  (d.ruleId, d.path, d.severity)

/-- The same verdicts, each as often, in whatever order. -/
def SameVerdicts (found found' : List Diagnostic) : Prop :=
  (found.map Diagnostic.verdict).Perm (found'.map Diagnostic.verdict)

namespace SameVerdicts

variable {a a' b b' : List Diagnostic}

theorem refl (found : List Diagnostic) : SameVerdicts found found :=
  List.Perm.refl _

theorem of_eq (same : a.map Diagnostic.verdict = b.map Diagnostic.verdict) : SameVerdicts a b :=
  List.Perm.of_eq same

theorem append (first : SameVerdicts a a') (second : SameVerdicts b b') :
    SameVerdicts (a ++ b) (a' ++ b') := by
  rw [SameVerdicts, List.map_append, List.map_append]
  exact List.Perm.append first second

/-- Where the same is decided, the verdicts are the same if they are in either case. -/
theorem ite {p p' : Prop} [Decidable p] [Decidable p'] (decided : p ↔ p') (yes : SameVerdicts a a')
    (no : SameVerdicts b b') : SameVerdicts (if p then a else b) (if p' then a' else b') := by
  by_cases h : p
  · rw [if_pos h, if_pos (decided.1 h)]
    exact yes
  · rw [if_neg h, if_neg (mt decided.2 h)]
    exact no

end SameVerdicts

namespace Rule

/-- A rule has the same verdicts on reordered values. -/
def Orderless (rule : Json → String → List Diagnostic) : Prop :=
  ∀ a b : Json, a.Reordered b → a.isKeyed = true → ∀ path, SameVerdicts (rule a path) (rule b path)

/-- A rule that says one thing of all lists, and that does not look at the order of members in an
object. -/
theorem Orderless.of_object {rule : Json → String → List Diagnostic}
    (lists : ∀ items items' path, SameVerdicts (rule (.arr items) path) (rule (.arr items') path))
    (objects : ∀ xs ys : Members, xs.Reordered ys → (Json.obj xs).isKeyed = true → ∀ path,
      SameVerdicts (rule (.obj xs) path) (rule (.obj ys) path)) : Orderless rule := by
  intro a b same keyed path
  cases same.cases with
  | scalar => exact .refl _
  | arr => exact lists _ _ path
  | obj members => exact objects _ _ members keyed path

variable {a b : Json} {xs ys : Members}

/-! ## What rules ask of a value -/

theorem isNumber_eq (same : a.Reordered b) : a.isNumber = b.isNumber :=
  same.congr_scalar Json.isNumber (fun _ _ => rfl) fun _ _ => rfl

theorem isAlias_eq (same : a.Reordered b) : a.isAlias = b.isAlias :=
  same.congr_scalar Json.isAlias (fun _ _ => rfl) fun _ _ => rfl

theorem allNumbers_eq (same : a.Reordered b) : allNumbers a = allNumbers b := by
  cases same.cases with
  | scalar => rfl
  | arr items => exact all_eq_of_forall₂ items fun _ _ => isNumber_eq
  | obj => rfl

theorem isCurve_eq (same : a.Reordered b) : isCurve a = isCurve b := by
  cases same.cases with
  | scalar => rfl
  | arr items =>
      rw [isCurve, isCurve, items.length_eq, all_eq_of_forall₂ items fun _ _ => isNumber_eq]
  | obj => rfl

theorem isFilledList_eq (same : a.Reordered b) : isFilledList a = isFilledList b := by
  cases same.cases with
  | scalar => rfl
  | arr items => exact congrArg not (isEmpty_eq_of_forall₂ items)
  | obj => rfl

theorem isFontFamily_eq (same : a.Reordered b) : isFontFamily a = isFontFamily b := by
  cases same.cases with
  | scalar => rfl
  | arr items =>
      have strings := all_eq_of_forall₂ items fun _ _ (same : Json.Reordered _ _) =>
        same.congr_scalar Json.isString (fun _ _ => rfl) fun _ _ => rfl
      rw [isFontFamily, isFontFamily, isEmpty_eq_of_forall₂ items, strings]
  | obj => rfl

theorem isTiming_eq (same : a.Reordered b) (keyed : a.isKeyed = true) : isTiming a = isTiming b := by
  cases same.cases with
  | scalar => rfl
  | arr items => exact congrArg (false || ·) (isCurve_eq same)
  | @obj xs ys members =>
      rw [isTiming, isTiming]
      cases members.find ((isKeyed_obj_iff xs).1 keyed).1 Key.type with
      | none absent absent' => rw [absent, absent']
      | some found found' same =>
          rw [found, found']
          cases same.cases <;> rfl

theorem nonNull?_rel (same : a.Reordered b) : Option.Rel Json.Reordered a.nonNull? b.nonNull? := by
  cases same.cases with
  | scalar => cases a <;> first | exact .none | exact .some (.refl _)
  | arr => exact .some same
  | obj => exact .some same

theorem channels?_rel (members : xs.Reordered ys) (distinct : xs.keys.Nodup) :
    Option.Rel Json.Reordered (channels? xs) (channels? ys) := by
  rw [channels?, channels?, Option.orElse_eq_or, Option.orElse_eq_or]
  have found := rel_or (members.get?_rel distinct "channels") (members.get?_rel distinct "components")
  exact rel_bind found fun _ _ => nonNull?_rel

/-! ## Values of one part -/

theorem orderless_colour : Orderless colour := by
  refine .of_object (fun _ _ _ => .of_eq rfl) fun xs ys members keyed path => ?_
  have distinct := ((isKeyed_obj_iff xs).1 keyed).1
  have space := (members.getD distinct "colorSpace").isGiven_eq
  have channels := channels?_rel members distinct
  show SameVerdicts (colourObject xs path) (colourObject ys path)
  rw [colourObject, colourObject, space]
  generalize channels? xs = x at channels ⊢
  generalize channels? ys = y at channels ⊢
  cases Json.isGiven _ with
  | false => exact .of_eq rfl
  | true =>
      cases channels with
      | none => exact .of_eq rfl
      | some same => exact .ite (by rw [allNumbers_eq same]) (.refl _) (.of_eq rfl)

theorem orderless_measureCheck (r : Measure) : Orderless r.check := by
  refine .of_object (fun _ _ _ => .of_eq rfl) fun xs ys members keyed path => ?_
  have distinct := ((isKeyed_obj_iff xs).1 keyed).1
  show SameVerdicts (r.object xs path) (r.object ys path)
  rw [Measure.object, Measure.object]
  cases members.find distinct "value" with
  | none absent absent' =>
      rw [absent, absent']
      exact .of_eq rfl
  | some found found' sameValue =>
      rw [found, found']
      cases members.find distinct "unit" with
      | none absent absent' =>
          rw [absent, absent']
          exact .of_eq rfl
      | some found found' sameUnit =>
          rw [found, found']
          have standard := sameUnit.congr_scalar Measure.isStandardUnit (fun _ _ => rfl)
            fun _ _ => rfl
          refine .append (.ite ?_ (.refl _) (.refl _)) (.ite ?_ (.refl _) (.refl _))
          · rw [isNumber_eq sameValue]
          · rw [standard]

/-- A reference stays one. -/
theorem Orderless.unlessAlias {rule : Json → String → List Diagnostic} (orderless : Orderless rule) :
    Orderless fun value path => unlessAlias value (rule value path) := by
  intro a b same keyed path
  exact .ite (by rw [isAlias_eq same]) (.refl _) (orderless a b same keyed path)

theorem orderless_measure (label : String) : Orderless (measure label) :=
  (orderless_measureCheck _).unlessAlias

theorem orderless_lineHeight : Orderless lineHeight :=
  (orderless_measureCheck _).unlessAlias

theorem orderless_fontWeight : Orderless fontWeight := by
  refine .of_object (fun _ _ _ => .of_eq rfl) fun xs ys members keyed path => ?_
  exact orderless_measureCheck _ _ _ ((reordered_obj_iff xs ys).2 members) keyed path

theorem orderless_number : Orderless number :=
  .of_object (fun _ _ _ => .of_eq rfl) fun _ _ _ _ _ => .of_eq rfl

theorem orderless_opacity : Orderless opacity :=
  .of_object (fun _ _ _ => .of_eq rfl) fun _ _ _ _ _ => .of_eq rfl

theorem orderless_fontFamily : Orderless fontFamily := by
  refine Orderless.unlessAlias fun a b same _ path => ?_
  exact .ite (by rw [isFontFamily_eq same]) (.refl _) (.refl _)

theorem orderless_duration : Orderless duration := by
  refine .of_object (fun _ _ _ => .of_eq rfl) fun xs ys members keyed path => ?_
  have distinct := ((isKeyed_obj_iff xs).1 keyed).1
  have value := isNumber_eq (members.getD distinct "value")
  have unit := (members.getD distinct "unit").congr_scalar isDurationUnit (fun _ _ => rfl)
    fun _ _ => rfl
  refine .ite ?_ (.refl _) (.refl _)
  rw [isDurationObject, isDurationObject, value, unit]

/-! ## Easing curves -/

/-- A token in the place of a curve is judged by its value. -/
theorem cubicBezierMember_eq (path : String) (ms : Members) :
    cubicBezierMember path ms = (ms.get? Key.value).map (cubicBezier s!"{path}.{Key.value}") := by
  induction ms with
  | nil => rfl
  | cons m rest ih =>
      obtain ⟨key, value⟩ := m
      rw [cubicBezierMember, Members.get?_cons, ih]
      by_cases here : key = Key.value
      · subst here
        rw [if_pos rfl, if_pos rfl]
        rfl
      · rw [if_neg here, if_neg (Ne.symm here)]

theorem orderless_cubicBezier : Orderless fun value path => cubicBezier path value := by
  intro a b same keyed path
  cases same.cases with
  | scalar => exact .refl _
  | arr => exact .ite (by rw [isCurve_eq same]) (.refl _) (.of_eq rfl)
  | @obj xs ys members =>
      induction xs using Members.nested_induction generalizing ys path with
      | step xs ih =>
          show SameVerdicts (cubicBezier path (.obj xs)) (cubicBezier path (.obj ys))
          rw [cubicBezier, cubicBezier, cubicBezierMember_eq, cubicBezierMember_eq]
          cases members.find ((isKeyed_obj_iff xs).1 keyed).1 Key.value with
          | none absent absent' =>
              rw [absent, absent']
              exact .of_eq rfl
          | some found found' same =>
              have valueKeyed := Members.isKeyed_of_get? keyed found
              rw [found, found']
              cases same.cases with
              | scalar => exact .refl _
              | arr => exact .ite (by rw [isCurve_eq same]) (.refl _) (.of_eq rfl)
              | obj inner => exact ih _ _ (Members.mem_of_get? found) _ inner valueKeyed same

/-! ## Keywords -/

theorem orderless_keywordsCheck (k : Keywords) : Orderless k.check :=
  .of_object (fun _ _ _ => .of_eq rfl) fun _ _ _ _ _ => .of_eq rfl

theorem orderless_textCase : Orderless textCase :=
  (orderless_keywordsCheck _).unlessAlias

theorem orderless_textDecoration : Orderless textDecoration :=
  (orderless_keywordsCheck _).unlessAlias

theorem orderless_strokeStyle : Orderless strokeStyle := by
  refine .of_object (fun _ _ _ => .of_eq rfl) fun xs ys members keyed path => ?_
  have distinct := ((isKeyed_obj_iff xs).1 keyed).1
  have dashes := isFilledList_eq (members.getD distinct "dashArray")
  have cap := (members.getD distinct "lineCap").congr_scalar Keywords.lineCap.isOneOf
    (fun _ _ => rfl) fun _ _ => rfl
  refine .append (.ite ?_ (.refl _) (.refl _)) (.ite ?_ (.refl _) (.of_eq rfl))
  · rw [dashes]
  · rw [cap]

/-! ## Composite values -/

theorem sameVerdicts_object (s : Shape) (members : xs.Reordered ys) (path : String)
    {parts parts' : List Diagnostic} (same : SameVerdicts parts parts') :
    SameVerdicts (s.object xs path parts) (s.object ys path parts') := by
  have missing : s.missing xs = s.missing ys :=
    List.filter_congr fun name _ => by rw [members.has_eq]
  exact .ite (by rw [missing]) same (.of_eq rfl)

theorem sameVerdicts_property (members : xs.Reordered ys) (keyed : (Json.obj xs).isKeyed = true)
    (path name : String) {rule : Json → String → List Diagnostic} (orderless : Orderless rule) :
    SameVerdicts (property xs path name rule) (property ys path name rule) := by
  rw [property, property]
  cases members.find ((isKeyed_obj_iff xs).1 keyed).1 name with
  | none absent absent' =>
      rw [absent, absent']
      exact .refl _
  | some found found' same =>
      rw [found, found']
      exact orderless _ _ same (Members.isKeyed_of_get? keyed found) _

theorem orderless_typography : Orderless typography := by
  refine .of_object (fun _ _ _ => .of_eq rfl) fun _ _ members keyed path => ?_
  refine sameVerdicts_object _ members path (.append (.append (.append ?_ ?_) ?_) ?_)
  · exact sameVerdicts_property members keyed path _ (orderless_measure _)
  · exact sameVerdicts_property members keyed path _ (orderless_measure _)
  · exact sameVerdicts_property members keyed path _ orderless_textCase
  · exact sameVerdicts_property members keyed path _ orderless_textDecoration

mutual

theorem sameVerdicts_shadow (path : String) {a b : Json} (same : a.Reordered b)
    (keyed : a.isKeyed = true) : SameVerdicts (shadow path a) (shadow path b) := by
  cases a with
  | arr xs =>
      cases same.cases with
      | scalar => exact .refl _
      | arr items =>
          exact sameVerdicts_shadowLayers path 0 xs ((reorderedItems_iff _ _).2 items)
            ((keyedItems_iff xs).1 keyed)
  | obj xs =>
      cases same.cases with
      | scalar => exact .refl _
      | obj members =>
          exact sameVerdicts_object _ members path
            (sameVerdicts_property members keyed path _ orderless_colour)
  | _ =>
      cases same.cases
      exact .refl _

theorem sameVerdicts_shadowLayers (path : String) (index : Nat) (xs : List Json) {ys : List Json}
    (same : reorderedItems xs ys) (keyed : ∀ x ∈ xs, x.isKeyed = true) :
    SameVerdicts (shadowLayers path index xs) (shadowLayers path index ys) := by
  cases xs with
  | nil =>
      cases ys with
      | nil => exact .refl _
      | cons => cases same
  | cons x xs =>
      cases ys with
      | nil => cases same
      | cons y ys =>
          rw [List.forall_mem_cons] at keyed
          exact .append (sameVerdicts_shadow _ same.1 keyed.1)
            (sameVerdicts_shadowLayers path (index + 1) xs same.2 keyed.2)

end

theorem orderless_gradientStop : Orderless gradientStop := by
  refine .of_object (fun _ _ _ => .of_eq rfl) fun xs ys members keyed path => ?_
  have distinct := ((isKeyed_obj_iff xs).1 keyed).1
  rw [gradientStop, gradientStop]
  refine .ite Iff.rfl (.refl _) ?_
  cases members.find distinct "color" with
  | none absent absent' =>
      rw [absent, absent']
      exact .of_eq rfl
  | some found found' =>
      rw [found, found']
      cases members.find distinct "position" with
      | none absent absent' =>
          rw [absent, absent']
          exact .of_eq rfl
      | some found found' same =>
          rw [found, found']
          exact .ite (by rw [isAlias_eq same, isNumber_eq same]) (.refl _) (.refl _)

theorem orderless_gradientStops : Orderless gradientStops := by
  intro a b same keyed path
  cases same.cases with
  | scalar => exact .refl _
  | obj => exact .of_eq rfl
  | @arr xs ys items =>
      have all (index : Nat) :
          SameVerdicts
            ((xs.zipIdx index).map fun stop => gradientStop stop.1 s!"{path}[{stop.2}]").flatten
            ((ys.zipIdx index).map fun stop => gradientStop stop.1 s!"{path}[{stop.2}]").flatten := by
        have stopsKeyed := (keyedItems_iff xs).1 keyed
        clear keyed same
        induction items generalizing index with
        | nil => exact .refl _
        | cons first _ ih =>
            rw [List.forall_mem_cons] at stopsKeyed
            exact .append (orderless_gradientStop _ _ first stopsKeyed.1 _) (ih _ stopsKeyed.2)
      cases items with
      | nil => exact .refl _
      | cons => exact all 0

theorem orderless_gradient : Orderless gradient := by
  intro a b same keyed path
  cases same.cases with
  | scalar => exact .refl _
  | arr => exact orderless_gradientStops _ _ same keyed path
  | obj members =>
      exact sameVerdicts_object _ members path
        (sameVerdicts_property members keyed path _ orderless_gradientStops)

theorem orderless_border : Orderless border := by
  refine .of_object (fun _ _ _ => .of_eq rfl) fun _ _ members keyed path => ?_
  exact sameVerdicts_object _ members path (.refl _)

theorem orderless_timing : Orderless timing := by
  intro a b same keyed path
  exact .ite (by rw [isTiming_eq same keyed]) (.refl _) (.refl _)

theorem orderless_transition : Orderless transition := by
  refine .of_object (fun _ _ _ => .of_eq rfl) fun _ _ members keyed path => ?_
  exact sameVerdicts_object _ members path
    (sameVerdicts_property members keyed path _ orderless_timing)

end Rule

open Rule

/-- **The rule of a type has the same verdicts on reordered values.** -/
theorem TokenType.orderless_check (t : TokenType) : Orderless t.check := by
  cases t with
  | color => exact orderless_colour
  | dimension | fontSize | letterSpacing | paragraphSpacing | borderRadius =>
      exact orderless_measure _
  | number => exact orderless_number
  | opacity => exact orderless_opacity
  | fontFamily => exact orderless_fontFamily
  | fontWeight => exact orderless_fontWeight
  | lineHeight => exact orderless_lineHeight
  | duration => exact orderless_duration
  | textCase => exact orderless_textCase
  | textDecoration => exact orderless_textDecoration
  | typography => exact orderless_typography
  | shadow => exact fun _ _ same keyed path => sameVerdicts_shadow path same keyed
  | gradient => exact orderless_gradient
  | border => exact orderless_border
  | strokeStyle => exact orderless_strokeStyle
  | transition => exact orderless_transition
  | cubicBezier => exact orderless_cubicBezier

end DesignTokens
