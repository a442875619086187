import SupplyPlan.Proofs.Planning.Drawing
import SupplyPlan.Web.Route

namespace SupplyPlan.Web

theorem segments_ne_nil (points : List CodePoint) : segments points ≠ [] := by
  cases points with
  | nil => exact List.cons_ne_nil _ _
  | cons p rest =>
    unfold segments
    split
    · exact List.cons_ne_nil _ _
    · cases segments rest <;> exact List.cons_ne_nil _ _

theorem segments_append_slash (points rest : List CodePoint) :
    segments (points ++ .char '/' :: rest) = segments points ++ segments rest := by
  induction points with
  | nil => rfl
  | cons p points ih =>
    rw [List.cons_append, segments, segments, ih]
    by_cases hslash : p = .char '/'
    · rw [if_pos hslash, if_pos hslash, List.cons_append]
    · rw [if_neg hslash, if_neg hslash]
      cases hfirst : segments points with
      | nil => exact absurd hfirst (segments_ne_nil points)
      | cons first others => rfl

theorem segments_of_not_mem {points : List CodePoint} (h : .char '/' ∉ points) : segments points = [⟨points⟩] := by
  induction points with
  | nil => rfl
  | cons p points ih =>
    rw [List.mem_cons, not_or] at h
    rw [segments, if_neg (Ne.symm h.1), ih h.2]

/-- A slash makes two parts at least. -/
theorem exists_segments_of_mem {points : List CodePoint} (h : .char '/' ∈ points) :
    ∃ first second others, segments points = first :: second :: others := by
  obtain ⟨before, after, rfl⟩ := List.append_of_mem h
  rw [segments_append_slash]
  cases hbefore : segments before with
  | nil => exact absurd hbefore (segments_ne_nil before)
  | cons first others =>
    cases others with
    | cons second others => exact ⟨first, second, _, rfl⟩
    | nil =>
      cases hafter : segments after with
      | nil => exact absurd hafter (segments_ne_nil after)
      | cons second rest => exact ⟨first, second, rest, rfl⟩

/-- A text that can stand between two slashes of a path. -/
def IsPathPart (t : Text) : Prop := t ≠ "" ∧ .char '/' ∉ t.points

instance (t : Text) : Decidable (IsPathPart t) := inferInstanceAs (Decidable (_ ∧ _))

theorem isPathPart_draw (ids : IdStream) (n : Nat) : IsPathPart (ids.draw n) := ids.fitsPath n

/-- The path at which a product is scheduled. -/
def schedulePath (product : Text) : Text := "/products/" ++ product ++ "/schedule"

/-- The path at which a requirement is shown. -/
def requirementPath (id : Text) : Text := "/requirements/" ++ id

theorem segments_schedulePath (product : Text) :
    segments (schedulePath product).points =
      [("" : Text), "products"] ++ segments product.points ++ [("schedule" : Text)] := by
  have hpoints : (schedulePath product).points =
      .char '/' :: ((Text.ofString "products").points ++ .char '/' ::
        (product.points ++ .char '/' :: (Text.ofString "schedule").points)) := rfl
  have hproducts := segments_of_not_mem (show .char '/' ∉ (Text.ofString "products").points by decide)
  have hschedule := segments_of_not_mem (show .char '/' ∉ (Text.ofString "schedule").points by decide)
  rw [hpoints, segments, if_pos rfl, segments_append_slash, segments_append_slash, hproducts, hschedule]
  rfl

theorem target_schedulePath {product : Text} (h : IsPathPart product) :
    Target.of "POST" (schedulePath product) = .route (.productSchedule product) := by
  have hroute : Route.ofPath? (schedulePath product) = some (.productSchedule product) := by
    rw [Route.ofPath?, segments_schedulePath, segments_of_not_mem h.2]
    have hschedule : Route.withoutLineBreak "schedule" = "schedule" := by decide
    simp [h.1, hschedule]
  rw [Target.of, hroute]
  rfl

/-- Such a path has too many parts, or an empty one where the product belongs. -/
theorem target_schedulePath_of_not {product : Text} (h : ¬ IsPathPart product) :
    Target.of "POST" (schedulePath product) = .unknown := by
  have hroute : Route.ofPath? (schedulePath product) = none := by
    rw [Route.ofPath?, segments_schedulePath]
    by_cases hslash : .char '/' ∈ product.points
    · obtain ⟨first, second, others, hparts⟩ := exists_segments_of_mem hslash
      rw [hparts]
      cases others <;> rfl
    · have hempty : product = "" := by
        by_contra hne
        exact h ⟨hne, hslash⟩
      rw [hempty]
      rfl
  have hlast : (schedulePath product).points.getLast? = some (.char 'e') := by
    exact List.getLast?_append_of_ne_nil _ (List.cons_ne_nil _ _)
  rw [Target.of, hroute]
  simp [hlast]

theorem target_requirementPath {id : Text} (h : IsPathPart id) :
    Target.of "GET" (requirementPath id) = .route (.requirement id) := by
  have hpoints : (requirementPath id).points =
      .char '/' :: ((Text.ofString "requirements").points ++ .char '/' :: id.points) := rfl
  have hparts : segments (requirementPath id).points = [("" : Text), "requirements", id] := by
    have hrequirements := segments_of_not_mem (show .char '/' ∉ (Text.ofString "requirements").points by decide)
    rw [hpoints, segments, if_pos rfl, segments_append_slash, hrequirements, segments_of_not_mem h.2]
    rfl
  have hroute : Route.ofPath? (requirementPath id) = some (.requirement id) := by
    rw [Route.ofPath?, hparts]
    simp [h.1]
  rw [Target.of, hroute]
  rfl

end SupplyPlan.Web
