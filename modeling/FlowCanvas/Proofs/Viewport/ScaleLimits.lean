import FlowCanvas.Proofs.Viewport.Exact

/-!
# The limits of the scale

Every event that zooms brings the scale between the limits, except one: content is fitted at
whatever scale it fits at, if that is at most its own size.  So a run of events leaves the limits
exactly at those contents that are too large to fit at the least scale.

What an event does to the scale is said once (`scale_step`), and the run lemma
`forall_prefix_scale_iff` turns it into a statement on all views of a run, for any property of
scales at all.

## Main definitions

* `View.InLimits` — the scale of a view is between the limits.
* `Settings.Holds` — content fits into the container at the least scale.

## Main results

* `forall_prefix_inLimits_iff` — **the limits hold throughout a run exactly if all content fitted
  in it fits at the least scale.**
* `not_forall_prefix_inLimits` — they need not hold, even with the usual limits.
-/

namespace FlowCanvas

open Scalar

/-! ### Scales along a run -/

section Run

variable {α : Type} [Scalar α] (s : Settings α) (container : Box α)

/-- What an event does to the scale. -/
theorem scale_step (v : View α) (e : Event α) :
    (View.step s container v e).scale
      = match e with
        | .wheel delta _ => s.clamp (v.scale * View.wheelFactor s delta)
        | .zoomIn => s.clamp (v.scale * s.zoomStep)
        | .zoomOut => s.clamp (v.scale / s.zoomStep)
        | .fit content => View.fitScale content container s.fitPadding
        | .reset => 1
        | .press _ | .move _ | .release => v.scale := by
  cases e with
  | move client =>
    -- Whether a drag is on or not, the scale is not touched.
    change (v.move client).scale = v.scale
    unfold View.move
    split <;> rfl
  | _ => rfl

/-- A property of scales that zooming establishes, and that the scales have which content is fitted
with and a reset leads to, holds after an event if it holds before it. -/
theorem scale_step_of {P : α → Prop} (hclamp : ∀ x, P (s.clamp x)) {v : View α}
    {e : Event α} (hreset : e = .reset → P 1)
    (hfit : ∀ b, e = .fit b → P (View.fitScale b container s.fitPadding))
    (hv : P v.scale) : P (View.step s container v e).scale := by
  rw [scale_step]
  cases e with
  | wheel _ _ => exact hclamp _
  | zoomIn => exact hclamp _
  | zoomOut => exact hclamp _
  | fit content => exact hfit content rfl
  | reset => exact hreset rfl
  | press _ => exact hv
  | move _ => exact hv
  | release => exact hv

theorem scale_replay_of {P : α → Prop} (hclamp : ∀ x, P (s.clamp x))
    {events : List (Event α)} (hreset : Event.reset ∈ events → P 1)
    (hfit : ∀ b, Event.fit b ∈ events → P (View.fitScale b container s.fitPadding)) {v : View α}
    (hv : P v.scale) : P (View.replay s container events v).scale := by
  induction events generalizing v with
  | nil => exact hv
  | cons e es ih =>
    have he : P (View.step s container v e).scale :=
      scale_step_of s container hclamp (fun he => hreset (he ▸ List.mem_cons_self))
        (fun b hb => hfit b (hb ▸ List.mem_cons_self)) hv
    exact ih (fun hes => hreset (List.mem_cons_of_mem e hes))
      (fun b hb => hfit b (List.mem_cons_of_mem e hb)) he

/-- A property that zooming establishes holds of all scales of a run exactly if it holds of those
that content is fitted at. -/
theorem forall_prefix_scale_iff {P : α → Prop} (hclamp : ∀ x, P (s.clamp x)) (hone : P 1)
    (events : List (Event α)) :
    (∀ es, es <+: events → P (View.replay s container es View.start).scale)
      ↔ ∀ b, Event.fit b ∈ events → P (View.fitScale b container s.fitPadding) := by
  constructor
  · intro h b hb
    obtain ⟨before, after, rfl⟩ := List.append_of_mem hb
    -- the prefix that ends in the fitting
    have hprefix : before ++ [Event.fit b] <+: before ++ Event.fit b :: after :=
      ⟨after, by rw [List.append_assoc, List.singleton_append]⟩
    have := h _ hprefix
    rwa [View.replay_append, View.replay_cons, View.replay_nil, scale_step] at this
  · intro h es hes
    exact scale_replay_of s container hclamp (fun _ => hone) (fun b hb => h b (hes.subset hb)) hone

end Run

/-! ### The limits -/

/-- The scale of the view is between the limits. -/
def View.InLimits (s : Settings ℚ) (v : View ℚ) : Prop :=
  s.minZoom ≤ v.scale ∧ v.scale ≤ s.maxZoom

/-- With the space around it, the content fits into the container at the least scale. -/
def Settings.Holds (s : Settings ℚ) (container content : Box ℚ) : Prop :=
  s.minZoom * content.width ≤ container.width - 2 * s.fitPadding
    ∧ s.minZoom * content.height ≤ container.height - 2 * s.fitPadding

theorem minZoom_le_fitScale_iff {s : Settings ℚ} (h : s.minZoom ≤ 1) {content : Box ℚ}
    (hc : content.HasArea) (container : Box ℚ) :
    s.minZoom ≤ View.fitScale content container s.fitPadding ↔ s.Holds container content := by
  rw [le_fitScale_iff hc, and_iff_left h]
  rfl

theorem fitScale_pos_iff {content : Box ℚ} (hc : content.HasArea) (container : Box ℚ)
    (padding : ℚ) :
    0 < View.fitScale content container padding
      ↔ 2 * padding < container.width ∧ 2 * padding < container.height := by
  rw [fitScale_eq_min, lt_min_iff, lt_min_iff, lt_div_iff₀ hc.1, lt_div_iff₀ hc.2, zero_mul,
    zero_mul, sub_pos, sub_pos, and_iff_left one_pos]

/-- **When the limits hold.**  No view of a run is above the upper limit.  All of them are between
the limits exactly if every content that is fitted fits into the container at the least scale; and
all of them have a positive scale exactly if, wherever content is fitted, the space around it leaves
some of the container. -/
theorem forall_prefix_inLimits_iff {s : Settings ℚ} (hpos : 0 < s.minZoom) (hmin : s.minZoom ≤ 1)
    (hmax : 1 ≤ s.maxZoom) (container : Box ℚ) {events : List (Event ℚ)}
    (hboxes : ∀ b, Event.fit b ∈ events → b.HasArea) :
    (∀ es, es <+: events → (View.replay s container es View.start).scale ≤ s.maxZoom)
      ∧ ((∀ es, es <+: events → (View.replay s container es View.start).InLimits s)
        ↔ ∀ b, Event.fit b ∈ events → s.Holds container b)
      ∧ ((∀ es, es <+: events → 0 < (View.replay s container es View.start).scale)
        ↔ ∀ b, Event.fit b ∈ events →
          2 * s.fitPadding < container.width ∧ 2 * s.fitPadding < container.height) := by
  have hfit : ∀ b, View.fitScale b container s.fitPadding ≤ s.maxZoom := fun b =>
    (fitScale_le_one _ _ _).trans hmax
  have hclamp : ∀ x, s.minZoom ≤ s.clamp x := minZoom_le_clamp (hmin.trans hmax)
  refine ⟨?_, ?_, ?_⟩
  · exact (forall_prefix_scale_iff s container (P := (· ≤ s.maxZoom)) (clamp_le_maxZoom s)
      hmax events).mpr fun b _ => hfit b
  · refine (forall_prefix_scale_iff s container (P := fun x => s.minZoom ≤ x ∧ x ≤ s.maxZoom)
      (fun x => ⟨hclamp x, clamp_le_maxZoom s x⟩) ⟨hmin, hmax⟩ events).trans
      (forall₂_congr fun b hb => ?_)
    rw [and_iff_left (hfit b)]
    exact minZoom_le_fitScale_iff hmin (hboxes b hb) container
  · refine (forall_prefix_scale_iff s container (P := (0 < ·))
      (fun x => hpos.trans_le (hclamp x)) one_pos events).trans (forall₂_congr fun b hb => ?_)
    exact fitScale_pos_iff (hboxes b hb) container s.fitPadding

/-- A run that drags, fits content at half its size and zooms stays between the usual limits. -/
theorem inLimits_of_fit_half :
    (0 < Settings.exact.minZoom ∧ Settings.exact.minZoom ≤ 1 ∧ 1 ≤ Settings.exact.maxZoom)
      ∧ (⟨-100, 50, 1520, 200⟩ : Box ℚ).HasArea
      ∧ ∀ es, es <+: [Event.press ⟨1, 2⟩, .fit ⟨-100, 50, 1520, 200⟩, .wheel 3 ⟨40, 50⟩, .zoomIn] →
        (View.replay Settings.exact ⟨10, 20, 800, 600⟩ es View.start).InLimits Settings.exact := by
  have hlimits : 0 < Settings.exact.minZoom ∧ Settings.exact.minZoom ≤ 1
      ∧ 1 ≤ Settings.exact.maxZoom := by
    norm_num [Settings.exact]
  have harea : (⟨-100, 50, 1520, 200⟩ : Box ℚ).HasArea := by norm_num [Box.HasArea]
  have hholds : Settings.exact.Holds ⟨10, 20, 800, 600⟩ ⟨-100, 50, 1520, 200⟩ := by
    norm_num [Settings.Holds, Settings.exact]
  refine ⟨hlimits, harea, (forall_prefix_inLimits_iff hlimits.1 hlimits.2.1 hlimits.2.2
    ⟨10, 20, 800, 600⟩ ?_).2.1.mpr ?_⟩
  all_goals
    intro b hb
    simp only [List.mem_cons, List.not_mem_nil, reduceCtorEq, Event.fit.injEq, false_or,
      or_false] at hb
    rw [hb]
    assumption

/-- Between usual limits, and with content and container that both have an area, a single fitting
can lead to a scale below the lower limit. -/
theorem not_forall_prefix_inLimits :
    (0 < Settings.exact.minZoom ∧ Settings.exact.minZoom ≤ 1 ∧ 1 ≤ Settings.exact.maxZoom)
      ∧ (0 < Settings.exact.zoomStep ∧ 0 < Settings.exact.wheelIn ∧ 0 < Settings.exact.wheelOut
        ∧ 0 ≤ Settings.exact.fitPadding)
      ∧ (⟨0, 0, 800, 600⟩ : Box ℚ).HasArea ∧ (⟨0, 0, 15200, 100⟩ : Box ℚ).HasArea
      ∧ ¬ ∀ es, es <+: [Event.fit ⟨0, 0, 15200, 100⟩] →
        (View.replay Settings.exact ⟨0, 0, 800, 600⟩ es View.start).InLimits Settings.exact := by
  have hscale : View.fitScale ⟨0, 0, 15200, 100⟩ ⟨0, 0, 800, 600⟩ Settings.exact.fitPadding
      = (1 / 20 : ℚ) := by
    rw [fitScale_eq_min]
    norm_num [Settings.exact]
  refine ⟨by norm_num [Settings.exact], by norm_num [Settings.exact], by norm_num [Box.HasArea],
    by norm_num [Box.HasArea], fun h => ?_⟩
  have hlow : Settings.exact.minZoom
      ≤ View.fitScale ⟨0, 0, 15200, 100⟩ ⟨0, 0, 800, 600⟩ Settings.exact.fitPadding :=
    (h _ List.prefix_rfl).1
  rw [hscale] at hlow
  norm_num [Settings.exact] at hlow

end FlowCanvas
