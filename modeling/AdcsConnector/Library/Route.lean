/-
URL patterns whose placeholders stand for whole segments of a path, tried one
after the other, as `django.urls.path` has them.

* `Part`, `capture`: a pattern segment by segment, and the values a list of
  segments gives to its placeholders; `<str:name>` takes a segment that is not
  empty;
* `fill`, `join`, `segments`: the path of a pattern for given values;
  `capture_fill`, `segments_join`;
* `resolve`: the first pattern that matches a path;
* `Apart`: two patterns that no path matches both (`capture_eq_none_of_apart`);
* `resolve_fill_iff`: a filled pattern is resolved to its own route exactly when no
  earlier pattern of the table captures it.
-/
import Mathlib.Data.List.TakeWhile
import Mathlib.Tactic

namespace Route

variable {α : Type*}

/-! ### Patterns -/

/-- A segment of a pattern. -/
inductive Part where
  | lit (text : String)
  | str (name : String)
  deriving DecidableEq

instance : Coe String Part := ⟨.lit⟩

/-- The names of the placeholders. -/
def names : List Part → List String
  | [] => []
  | .lit _ :: p => names p
  | .str name :: p => name :: names p

/-- The segments that a part takes. -/
def Part.Accepts : Part → String → Prop
  | lit text, s => s = text
  | str _, s => s ≠ ""

instance : (part : Part) → (s : String) → Decidable (part.Accepts s)
  | .lit text, s => inferInstanceAs (Decidable (s = text))
  | .str _, s => inferInstanceAs (Decidable (s ≠ ""))

/-- What a part adds to the values. -/
def Part.keep : Part → String → List String → List String
  | lit _, _, values => values
  | str _, s, values => s :: values

/-- The values that segments give to the placeholders. -/
def capture : List Part → List String → Option (List String)
  | [], [] => some []
  | part :: p, s :: ss => if part.Accepts s then (capture p ss).map (part.keep s) else none
  | _, _ => none

/-- The segments of a pattern for the values of its placeholders. -/
def fill : List Part → List String → List String
  | .lit text :: p, values => text :: fill p values
  | .str _ :: p, v :: values => v :: fill p values
  | _, _ => []

/-- Values for the placeholders of a pattern. -/
structure Fits (p : List Part) (values : List String) : Prop where
  length_eq : values.length = (names p).length
  ne_empty : ∀ v ∈ values, v ≠ ""

lemma Fits.tail {name v : String} {p : List Part} {values : List String}
    (h : Fits (.str name :: p) (v :: values)) : v ≠ "" ∧ Fits p values :=
  ⟨h.ne_empty v List.mem_cons_self, Nat.succ.inj h.length_eq,
    fun w hw => h.ne_empty w (List.mem_cons_of_mem _ hw)⟩

/-- A filled pattern captures the values it was filled with. -/
lemma capture_fill {p : List Part} {values : List String} (h : Fits p values) :
    capture p (fill p values) = some values := by
  induction p generalizing values with
  | nil =>
      obtain rfl := List.length_eq_zero_iff.mp h.length_eq
      rfl
  | cons part p ih =>
      cases part with
      | lit text =>
          have haccepts : (Part.lit text).Accepts text := rfl
          rw [fill, capture, if_pos haccepts, ih ⟨h.length_eq, h.ne_empty⟩]
          rfl
      | str name =>
          cases values with
          | nil => exact absurd h.length_eq (by simp [names])
          | cons v values =>
              have haccepts : (Part.str name).Accepts v := h.tail.1
              rw [fill, capture, if_pos haccepts, ih h.tail.2]
              rfl

/-- What a pattern captures, it was filled with. -/
lemma eq_fill_of_capture {p : List Part} {ss values : List String}
    (h : capture p ss = some values) : Fits p values ∧ ss = fill p values := by
  induction p generalizing ss values with
  | nil =>
      cases ss with
      | nil =>
          obtain rfl := Option.some.inj h
          exact ⟨⟨rfl, by simp⟩, rfl⟩
      | cons s ss => cases h
  | cons part p ih =>
      cases ss with
      | nil => cases h
      | cons s ss =>
          rw [capture] at h
          split_ifs at h with haccepts
          obtain ⟨rest, hrest, rfl⟩ := Option.map_eq_some_iff.mp h
          obtain ⟨hfits, rfl⟩ := ih hrest
          cases part with
          | lit text =>
              obtain rfl : s = text := haccepts
              exact ⟨⟨hfits.length_eq, hfits.ne_empty⟩, rfl⟩
          | str name =>
              refine ⟨⟨congrArg Nat.succ hfits.length_eq, ?_⟩, rfl⟩
              exact List.forall_mem_cons.mpr ⟨haccepts, hfits.ne_empty⟩

/-- The values of a pattern are among its segments. -/
lemma mem_fill_of_mem {p : List Part} {values : List String} (h : Fits p values) :
    ∀ v ∈ values, v ∈ fill p values := by
  induction p generalizing values with
  | nil =>
      obtain rfl := List.length_eq_zero_iff.mp h.length_eq
      simp
  | cons part p ih =>
      cases part with
      | lit text => exact fun v hv => List.mem_cons_of_mem _ (ih ⟨h.length_eq, h.ne_empty⟩ v hv)
      | str name =>
          cases values with
          | nil => simp
          | cons w values =>
              rw [fill]
              refine List.forall_mem_cons.mpr ⟨List.mem_cons_self, fun v hv => ?_⟩
              exact List.mem_cons_of_mem _ (ih h.tail.2 v hv)

/-! ### Paths -/

/-- The segments of a path. -/
def segments (path : String) : List String := (path.toList.splitOn '/').map String.ofList

/-- The path of segments. -/
def join (ss : List String) : String :=
  String.ofList (List.intercalate ['/'] (ss.map String.toList))

/-- A path is taken apart into the segments it was made of. -/
lemma segments_join {ss : List String} (hne : ss ≠ []) (hslash : ∀ s ∈ ss, '/' ∉ s.toList) :
    segments (join ss) = ss := by
  have hsplit : (List.intercalate ['/'] (ss.map String.toList)).splitOn '/' =
      ss.map String.toList := by
    refine List.splitOn_intercalate '/' (fun l hl => ?_) (by simpa using hne)
    obtain ⟨s, hs, rfl⟩ := List.mem_map.mp hl
    exact hslash s hs
  rw [segments, join, String.toList_ofList, hsplit, List.map_map]
  refine (List.map_congr_left fun s _ => ?_).trans (List.map_id ss)
  rw [Function.comp_apply, String.ofList_toList, id]

lemma join_segments (path : String) : join (segments path) = path := by
  have hmap : ((path.toList.splitOn '/').map String.ofList).map String.toList =
      path.toList.splitOn '/' := by
    rw [List.map_map]
    refine (List.map_congr_left fun l _ => ?_).trans (List.map_id _)
    rw [Function.comp_apply, String.toList_ofList, id]
  rw [join, segments, hmap, List.intercalate_splitOn, String.ofList_toList]

lemma not_mem_of_mem_splitOn {a : Char} {xs l : List Char} (h : l ∈ xs.splitOn a) : a ∉ l := by
  induction xs generalizing l with
  | nil =>
      obtain rfl := List.mem_singleton.mp h
      simp
  | cons x xs ih =>
      rw [List.splitOn_cons_eq_if_modifyHead] at h
      split_ifs at h with hx
      · rcases List.mem_cons.mp h with rfl | h
        · simp
        · exact ih h
      · cases hsplit : xs.splitOn a with
        | nil => exact absurd hsplit (List.splitOn_ne_nil a xs)
        | cons first rest =>
            rw [hsplit, List.modifyHead_cons] at h
            rcases List.mem_cons.mp h with rfl | h
            · have hne : a ≠ x := fun heq => hx (by simp [heq])
              have hfirst := ih (hsplit ▸ List.mem_cons_self)
              exact List.not_mem_cons_of_ne_of_not_mem hne hfirst
            · exact ih (hsplit ▸ List.mem_cons_of_mem _ h)

/-- A segment has no slash. -/
lemma not_mem_of_mem_segments {path s : String} (h : s ∈ segments path) : '/' ∉ s.toList := by
  obtain ⟨l, hl, rfl⟩ := List.mem_map.mp h
  rw [String.toList_ofList]
  exact not_mem_of_mem_splitOn hl

/-- A part that is a segment. -/
def Part.OneSegment : Part → Prop
  | lit text => '/' ∉ text.toList
  | str _ => True

instance : (part : Part) → Decidable part.OneSegment
  | .lit text => inferInstanceAs (Decidable ('/' ∉ text.toList))
  | .str _ => inferInstanceAs (Decidable True)

/-- No literal of the pattern and no value has a slash. -/
lemma not_mem_fill {p : List Part} {values : List String} (hp : ∀ part ∈ p, part.OneSegment)
    (hvalues : ∀ v ∈ values, '/' ∉ v.toList) : ∀ s ∈ fill p values, '/' ∉ s.toList := by
  induction p generalizing values with
  | nil => simp [fill]
  | cons part p ih =>
      obtain ⟨hpart, hp'⟩ := List.forall_mem_cons.mp hp
      cases part with
      | lit text =>
          rw [fill]
          exact List.forall_mem_cons.mpr ⟨hpart, ih hp' hvalues⟩
      | str name =>
          cases values with
          | nil => simp [fill]
          | cons v values =>
              rw [fill]
              exact List.forall_mem_cons.mpr ⟨hvalues v List.mem_cons_self,
                ih hp' fun w hw => hvalues w (List.mem_cons_of_mem _ hw)⟩

/-! ### Tables of routes -/

/-- The first pattern that matches a path, with the values of its placeholders. -/
def resolve (routes : List (List Part × α)) (path : String) :
    Option (α × List (String × String)) :=
  routes.findSome? fun r =>
    (capture r.1 (segments path)).map fun values => (r.2, (names r.1).zip values)

/-- No segment is taken by both parts. -/
def Part.Apart : Part → Part → Prop
  | lit a, lit b => a ≠ b
  | lit a, str _ => a = ""
  | str _, lit b => b = ""
  | str _, str _ => False

instance : (a b : Part) → Decidable (a.Apart b)
  | .lit a, .lit b => inferInstanceAs (Decidable (a ≠ b))
  | .lit a, .str _ => inferInstanceAs (Decidable (a = ""))
  | .str _, .lit b => inferInstanceAs (Decidable (b = ""))
  | .str _, .str _ => inferInstanceAs (Decidable False)

lemma Part.Apart.not_accepts {a b : Part} (h : a.Apart b) {s : String} (hs : a.Accepts s) :
    ¬ b.Accepts s := by
  cases a <;> cases b <;> simp only [Part.Apart, Part.Accepts] at h hs ⊢
  · exact fun hb => h (hs.symm.trans hb)
  · exact not_not.mpr (hs.trans h)
  · exact fun hb => hs (hb.trans h)

/-- No list of segments matches both patterns: two parts at one place are apart,
or the lengths differ. -/
def Apart : List Part → List Part → Prop
  | [], [] => False
  | a :: p, b :: q => Apart p q ∨ a.Apart b
  | _, _ => True

instance Apart.decidable : (p q : List Part) → Decidable (Apart p q)
  | [], [] => inferInstanceAs (Decidable False)
  | [], _ :: _ => inferInstanceAs (Decidable True)
  | _ :: _, [] => inferInstanceAs (Decidable True)
  | a :: p, b :: q =>
      have := Apart.decidable p q
      inferInstanceAs (Decidable (Apart p q ∨ a.Apart b))

lemma capture_eq_none_of_apart {p q : List Part} (h : Apart p q) {ss : List String}
    (hp : capture p ss ≠ none) : capture q ss = none := by
  induction p generalizing q ss with
  | nil =>
      cases ss with
      | nil =>
          cases q with
          | nil => exact absurd h id
          | cons b q => rfl
      | cons s ss => exact absurd rfl hp
  | cons a p ih =>
      cases ss with
      | nil => exact absurd rfl hp
      | cons s ss =>
          cases q with
          | nil => rfl
          | cons b q =>
              by_cases ha : a.Accepts s
              · rw [capture, if_pos ha, ne_eq, Option.map_eq_none_iff] at hp
                rw [capture]
                rcases h with h | h
                · rw [ih h hp, Option.map_none, ite_self]
                · rw [if_neg (h.not_accepts ha)]
              · rw [capture, if_neg ha] at hp
                exact absurd rfl hp

/-- The path of a pattern is made of the segments it was filled with. -/
lemma segments_join_fill {p : List Part} {values : List String} (hne : p ≠ [])
    (hp : ∀ part ∈ p, part.OneSegment) (hfits : Fits p values)
    (hvalues : ∀ v ∈ values, '/' ∉ v.toList) : segments (join (fill p values)) = fill p values := by
  refine segments_join (fun hnil => ?_) (not_mem_fill hp hvalues)
  have hcapture := capture_fill hfits
  rw [hnil] at hcapture
  cases p with
  | nil => exact hne rfl
  | cons part p => cases hcapture

/-- The path of a pattern that is apart from every route is not resolved. -/
lemma resolve_eq_none_of_apart {routes : List (List Part × α)} {p : List Part}
    {values : List String} (hne : p ≠ []) (hp : ∀ part ∈ p, part.OneSegment)
    (hfits : Fits p values) (hvalues : ∀ v ∈ values, '/' ∉ v.toList)
    (hapart : ∀ r ∈ routes, Apart p r.1) : resolve routes (join (fill p values)) = none := by
  rw [resolve, segments_join_fill hne hp hfits hvalues, List.findSome?_eq_none_iff]
  intro r hr
  have hcapture : capture p (fill p values) ≠ none := by simp [capture_fill hfits]
  rw [capture_eq_none_of_apart (hapart r hr) hcapture, Option.map_none]

/-- A route that captures the path is the first one exactly when no earlier one
does, as long as the earlier routes lead elsewhere. -/
lemma findSome?_eq_iff {earlier later : List (List Part × α)} {p : List Part} {a : α}
    {ss values : List String} (hcapture : capture p ss = some values)
    (helse : ∀ r ∈ earlier, r.2 ≠ a) :
    ((earlier ++ (p, a) :: later).findSome? fun r =>
        (capture r.1 ss).map fun values => (r.2, (names r.1).zip values)) =
      some (a, (names p).zip values) ↔ ∀ r ∈ earlier, capture r.1 ss = none := by
  induction earlier with
  | nil => simp [hcapture]
  | cons r earlier ih =>
      have helse' : ∀ r ∈ earlier, r.2 ≠ a := fun r hr => helse r (List.mem_cons_of_mem _ hr)
      rw [List.cons_append, List.findSome?_cons, List.forall_mem_cons]
      cases hr : capture r.1 ss with
      | none =>
          rw [Option.map_none]
          simpa using ih helse'
      | some other =>
          simp only [Option.map_some, reduceCtorEq, false_and, iff_false]
          intro heq
          exact helse r List.mem_cons_self (Prod.mk.inj (Option.some.inj heq)).1

/-- A path that is resolved is the path of a route for the values. -/
lemma of_resolve_eq_some {routes : List (List Part × α)} {path : String} {a : α}
    {kwargs : List (String × String)} (h : resolve routes path = some (a, kwargs)) :
    ∃ p values, (p, a) ∈ routes ∧ Fits p values ∧ (∀ v ∈ values, '/' ∉ v.toList) ∧
      path = join (fill p values) ∧ kwargs = (names p).zip values := by
  obtain ⟨⟨p, a⟩, hr, hsome⟩ := List.exists_of_findSome?_eq_some h
  obtain ⟨values, hcapture, heq⟩ := Option.map_eq_some_iff.mp hsome
  cases heq
  obtain ⟨hfits, hsegments⟩ := eq_fill_of_capture hcapture
  refine ⟨p, values, hr, hfits, fun v hv => ?_, by rw [← hsegments, join_segments], rfl⟩
  exact not_mem_of_mem_segments (hsegments ▸ mem_fill_of_mem hfits v hv)

variable [DecidableEq α]

/-- The routes before the one that leads to `a`. -/
def before (routes : List (List Part × α)) (a : α) : List (List Part × α) :=
  routes.takeWhile fun r => r.2 ≠ a

lemma ne_of_mem_before {routes : List (List Part × α)} {a : α} {r : List Part × α}
    (h : r ∈ before routes a) : r.2 ≠ a := by
  simpa using List.mem_takeWhile_imp h

lemma exists_eq_before_append {routes : List (List Part × α)} {p : List Part} {a : α}
    (hnodup : (routes.map Prod.snd).Nodup) (hmem : (p, a) ∈ routes) :
    ∃ later, routes = before routes a ++ (p, a) :: later := by
  induction routes with
  | nil => cases hmem
  | cons r routes ih =>
      obtain ⟨hr, hnodup⟩ := List.nodup_cons.mp hnodup
      rcases List.mem_cons.mp hmem with rfl | hmem
      · exact ⟨routes, by simp [before]⟩
      · have hne : r.2 ≠ a := fun heq =>
          hr (heq ▸ List.mem_map_of_mem (f := Prod.snd) hmem)
        obtain ⟨later, hlater⟩ := ih hnodup hmem
        refine ⟨later, ?_⟩
        have hbefore : before (r :: routes) a = r :: before routes a :=
          List.takeWhile_cons_of_pos (by simpa using hne)
        rw [hbefore, List.cons_append, ← hlater]

/-- A filled pattern is resolved to its own route exactly when no earlier pattern
captures it. -/
theorem resolve_fill_iff {routes : List (List Part × α)} {p : List Part} {a : α}
    {values : List String} (hnodup : (routes.map Prod.snd).Nodup) (hmem : (p, a) ∈ routes)
    (hne : p ≠ []) (hp : ∀ part ∈ p, part.OneSegment) (hfits : Fits p values)
    (hvalues : ∀ v ∈ values, '/' ∉ v.toList) :
    resolve routes (join (fill p values)) = some (a, (names p).zip values) ↔
      ∀ r ∈ before routes a, capture r.1 (fill p values) = none := by
  obtain ⟨later, hroutes⟩ := exists_eq_before_append hnodup hmem
  rw [resolve, segments_join_fill hne hp hfits hvalues]
  conv_lhs => rw [hroutes]
  exact findSome?_eq_iff (capture_fill hfits) fun r hr => ne_of_mem_before hr

end Route
