import DeliveryPipeline.CommandLine.Run
import DeliveryPipeline.Proofs.Cache.History
import DeliveryPipeline.Proofs.CommandLine.Shown
import DeliveryPipeline.Proofs.FirstOccurrences
import DeliveryPipeline.Proofs.Pipeline.Stages
import DeliveryPipeline.Proofs.Store.Loading

/-!
# What a plan comes to

A plan is made from what the request gives, and from the settings what it does not give. It loads
its files in their order and builds over all their resources. Each way to end is stated on its own:
four failures, and the pipeline that is shown. Every plan ends in exactly one of them, and it prints
nothing but the pipeline that it shows.
-/
namespace DeliveryPipeline

theorem ProfileSet.foldl_addSubProfile (names : List String) (p : ProfileSet) :
    names.foldl addSubProfile p = { p with subProfiles := names.foldl pushNew p.subProfiles } := by
  induction names generalizing p with
  | nil => rfl
  | cons name rest ih =>
    rw [List.foldl_cons, ih, List.foldl_cons]
    by_cases h : name ∈ p.subProfiles <;> simp [addSubProfile, pushNew, h]

/-- A profile set made of names has each of them once, where it is first given. -/
theorem ProfileSet.ofNames_eq (base : String) (names : List String) :
    ofNames base names = ⟨base, names.eraseDups⟩ := by
  rw [ofNames, foldl_addSubProfile, foldl_pushNew_nil]

namespace CommandLine

/-- What a request asks for counts, and the setting only where it asks for nothing. -/
inductive Prefers {α : Type} (request : Option α) (setting : α) : α → Prop where
  | asked {x : α} (request_eq : request = some x) : Prefers request setting x
  | settled (request_eq : request = none) : Prefers request setting setting

theorem prefers_iff {α : Type} {request : Option α} {setting x : α} :
    Prefers request setting x ↔ x = request.getD setting := by
  constructor
  · rintro (request_eq | request_eq) <;> rw [request_eq] <;> rfl
  · rintro rfl
    cases request with
    | none => exact .settled rfl
    | some x => exact .asked rfl

/-- A list that is given for an option asks for something unless it is empty. -/
def asked? (given : List String) : Option (List String) :=
  if given = [] then none else some given

/-- All that a plan is made from. -/
structure Choice where
  files : List String
  profiles : ProfileSet
  limit : Nat

/-- The choice is made by the request, and where it leaves something open, by the settings. Of the
sub-profiles the repeats are dropped. -/
structure Choice.Follows (c : Choice) (q : PlanRequest) (s : Settings) : Prop where
  files : Prefers (asked? q.resources) s.resources c.files
  base : Prefers q.profile s.profile c.profiles.base
  subProfiles : ∃ names, Prefers (asked? q.subProfiles) s.subProfiles names ∧
    c.profiles.subProfiles = names.eraseDups
  limit : Prefers q.maxExpansions s.maxExpansions c.limit

/-- The outcome of a build over some resources, with no schemas and no listeners registered. -/
def Choice.build (c : Choice) (ds : List Descriptor) : Outcome Pipeline :=
  (({ maxExpansions := c.limit } : Environment).withStored ds).build c.profiles none

/-- The ways in which a plan ends: with a failure, or with a text that shows a pipeline. -/
inductive Ends (around : Surroundings) (q : PlanRequest) : Except PlanFailure String → Prop where
  | unsettled {e : Error} (settings_eq : settingsIn around = .error e) :
      Ends around q (.error (.settings e))
  | withoutFiles {s : Settings} {c : Choice} (settings_eq : settingsIn around = .ok s)
      (follows : c.Follows q s) (none_given : c.files = []) : Ends around q (.error .noResources)
  /-- The first file that gives no resources is the error. -/
  | unloaded {s : Settings} {c : Choice} {e : Error} (settings_eq : settingsIn around = .ok s)
      (follows : c.Follows q s) (refused : Store.Loads around.read c.files (.error e)) :
      Ends around q (.error (.resources e))
  | unbuilt {s : Settings} {c : Choice} {ds : List Descriptor} {e : Error}
      (settings_eq : settingsIn around = .ok s) (follows : c.Follows q s) (given : c.files ≠ [])
      (loaded : Store.Loads around.read c.files (.ok ds))
      (refused : (c.build ds).result = .error e) :
      Ends around q (.error (.build c.profiles e))
  | shown {s : Settings} {c : Choice} {ds : List Descriptor} {p : Pipeline}
      (settings_eq : settingsIn around = .ok s) (follows : c.Follows q s) (given : c.files ≠ [])
      (loaded : Store.Loads around.read c.files (.ok ds)) (built : (c.build ds).result = .ok p) :
      Ends around q (.ok (q.render around p))

/-- The choice that a plan makes. -/
def PlanRequest.choice (q : PlanRequest) (s : Settings) : Choice :=
  ⟨q.filesWith s, q.profilesWith s, q.limitWith s⟩

/-- The text that a plan shows, or its failure. -/
def planned (around : Surroundings) (q : PlanRequest) : Except PlanFailure String := do
  let settings ← (settingsIn around).mapError .settings
  return q.render around (← q.pipeline settings around.read)

variable {around : Surroundings} {q : PlanRequest} {s : Settings} {c : Choice}
  {read : FileReader} {r : Except Error (List Descriptor)}

theorem getD_asked? (given setting : List String) :
    (asked? given).getD setting = if given.isEmpty then setting else given := by
  cases given <;> rfl

theorem follows_choice (q : PlanRequest) (s : Settings) : (q.choice s).Follows q s where
  files := prefers_iff.2 (getD_asked? q.resources s.resources).symm
  base := by
    rw [prefers_iff, PlanRequest.choice, PlanRequest.profilesWith, ProfileSet.ofNames_eq]
  subProfiles := by
    refine ⟨_, prefers_iff.2 (getD_asked? q.subProfiles s.subProfiles).symm, ?_⟩
    rw [PlanRequest.choice, PlanRequest.profilesWith, ProfileSet.ofNames_eq]
  limit := prefers_iff.2 rfl

/-- The rules of a choice leave nothing open. -/
theorem Choice.Follows.eq_choice (h : c.Follows q s) : c = q.choice s := by
  obtain ⟨names, hnames, hsubProfiles⟩ := h.subProfiles
  rw [prefers_iff, getD_asked?] at hnames
  have hfiles : c.files = q.filesWith s := by
    rw [prefers_iff.1 h.files, getD_asked?]
    rfl
  have hprofiles : c.profiles = q.profilesWith s := by
    rw [PlanRequest.profilesWith, ProfileSet.ofNames_eq, ← hnames, ← hsubProfiles,
      ← prefers_iff.1 h.base]
  have hlimit : c.limit = q.limitWith s := prefers_iff.1 h.limit
  rw [PlanRequest.choice, ← hfiles, ← hprofiles, ← hlimit]

/-- The pipeline is that of a build, since the context of a plan is new. -/
theorem pipeline_of_loads (hgiven : (q.choice s).files ≠ [])
    (hloads : Store.Loads read (q.choice s).files r) :
    q.pipeline s read = r.mapError PlanFailure.resources >>= fun ds =>
      ((q.choice s).build ds).result.mapError (.build (q.choice s).profiles) := by
  have hfiles : (q.filesWith s).isEmpty = false := List.isEmpty_eq_false_iff.2 hgiven
  have hstore : Store.ofFiles read (q.filesWith s) = r.map Store.mk := hloads.ofFiles_eq
  rw [PlanRequest.pipeline, hfiles, hstore]
  cases r with
  | error e => rfl
  | ok ds =>
    have hnew := Context.getOrBuild_of_unpublished
      (c := { environment := { store := ⟨ds⟩, maxExpansions := q.limitWith s } })
      (p := q.profilesWith s) (Dictionary.get?_empty (q.profilesWith s).base) none
    simp only [Except.map, Except.mapError, bind, Except.bind, hnew]
    rfl

theorem pipeline_of_no_files (h : (q.choice s).files = []) :
    q.pipeline s read = .error .noResources := by
  have hfiles : (q.filesWith s).isEmpty = true := List.isEmpty_iff.2 h
  rw [PlanRequest.pipeline, hfiles]
  rfl

theorem planned_of_settings (h : settingsIn around = .ok s) :
    planned around q = (q.pipeline s around.read).map (q.render around) := by
  rw [planned, h]
  simp only [Except.mapError, bind, Except.bind]
  cases q.pipeline s around.read <;> rfl

theorem Ends.planned_eq {ending : Except PlanFailure String} (h : Ends around q ending) :
    planned around q = ending := by
  cases h with
  | unsettled settings_eq =>
    rw [planned, settings_eq]
    rfl
  | withoutFiles settings_eq follows none_given =>
    obtain rfl := follows.eq_choice
    rw [planned_of_settings settings_eq, pipeline_of_no_files none_given]
    rfl
  | unloaded settings_eq follows refused =>
    obtain rfl := follows.eq_choice
    rw [planned_of_settings settings_eq, pipeline_of_loads refused.ne_nil refused]
    rfl
  | unbuilt settings_eq follows given loaded refused =>
    obtain rfl := follows.eq_choice
    rw [planned_of_settings settings_eq, pipeline_of_loads given loaded]
    simp only [Except.mapError, bind, Except.bind, refused, Except.map]
  | shown settings_eq follows given loaded built =>
    obtain rfl := follows.eq_choice
    rw [planned_of_settings settings_eq, pipeline_of_loads given loaded]
    simp only [Except.mapError, bind, Except.bind, built, Except.map]

theorem ends_planned (around : Surroundings) (q : PlanRequest) :
    Ends around q (planned around q) := by
  cases hsettings : settingsIn around with
  | error e =>
    rw [planned, hsettings]
    exact .unsettled hsettings
  | ok s =>
    rw [planned_of_settings hsettings]
    have hfollows := follows_choice q s
    by_cases hgiven : (q.choice s).files = []
    · rw [pipeline_of_no_files hgiven]
      exact .withoutFiles hsettings hfollows hgiven
    obtain ⟨r, hloads⟩ := Store.exists_loads around.read (q.choice s).files
    rw [pipeline_of_loads hgiven hloads]
    cases r with
    | error e => exact .unloaded hsettings hfollows hloads
    | ok ds =>
      simp only [Except.mapError, bind, Except.bind]
      cases hbuild : ((q.choice s).build ds).result with
      | error e => exact .unbuilt hsettings hfollows hgiven hloads hbuild
      | ok p => exact .shown hsettings hfollows hgiven hloads hbuild

/-- A plan prints at its end, and only if it has not failed. -/
theorem runAfter_runPlan (around : Surroundings) (q : PlanRequest) (printed : String) :
    (runPlan around q).runAfter printed =
      match planned around q with
      | .ok text => (.ok (), printed ++ text)
      | .error failure => (.error failure, printed) := by
  rw [runPlan, Printing.runAfter_lift_bind]
  cases hsettings : settingsIn around with
  | error e =>
    rw [planned, hsettings]
    rfl
  | ok s =>
    rw [planned_of_settings hsettings]
    dsimp only [Except.mapError]
    rw [Printing.runAfter_lift_bind]
    cases q.pipeline s around.read with
    | error failure => rfl
    | ok p => exact Printing.runAfter_say _ printed

/-- A plan ends in exactly one of the ways that there are. If it shows a pipeline, it prints just
the text that shows it. If it fails, it prints nothing, and answers with what went wrong. -/
theorem plan_ends (around : Surroundings) (q : PlanRequest) :
    ∃ ending, (∀ other, Ends around q other ↔ other = ending) ∧
      (∀ printed, (runPlan around q).runAfter printed =
        match ending with
        | .ok text => (.ok (), printed ++ text)
        | .error failure => (.error failure, printed)) ∧
      run around (.plan q) =
        match ending with
        | .ok text => .print text
        | .error failure => .fail failure.chain := by
  refine ⟨planned around q, fun other => ?_, runAfter_runPlan around q, ?_⟩
  · exact ⟨fun h => h.planned_eq.symm, fun h => h ▸ ends_planned around q⟩
  · rw [run, runAfter_runPlan]
    cases planned around q with
    | error failure => rfl
    | ok text => simp

/-- Surroundings without settings, and with one resource file, which lists a handler for trees. -/
def bareSurroundings : Surroundings where
  home := some "home"
  read file :=
    if file = "page" then
      .ok (Text.unlines ["[[resource]]", "selector = 'p'", "type = 'handler'",
        "parameters.modes = 'tree'", "parameters.roles = 'serialize'"])
    else .error "gone"
  exists? _ := false
  pipelineId := "1"
  builtAt := ""

def pageDescriptor : Descriptor where
  selector := "p"
  declaredType := some "handler"
  parameters := .ofList [("modes", "tree"), ("roles", "serialize")]

/-- A request that names a sub-profile twice. -/
def repeatingRequest (files : List String) : PlanRequest where
  resources := files
  subProfiles := ["print", "print"]

theorem settingsIn_bareSurroundings : settingsIn bareSurroundings = .ok {} := rfl

theorem gives_page : Store.Gives bareSurroundings.read "page" (.ok [pageDescriptor]) :=
  .listed rfl (by decide +kernel)

/-- What the plan of the page shows. -/
def pagePlan : List String := [
  "Pipeline:  1",
  "Profile:   default [print]",
  "Strategy:  tree",
  "Digest:    dbaa2a60ad87012468b882cb1d6accde8d404436dc6053f39f86f2123c071f4f",
  "Schema:    none",
  "",
  "Targets (1):",
  "  p",
  "    - selector=p type=handler",
  "",
  "Handlers (1 classified, 0 unclassified):",
  "    tree  stream  handler  ('x' = supported)",
  "    ------------------------------------------------------------",
  "     x            p:handler (selector=p type=handler)",
  "  serialize:",
  "    p: p:handler",
  "",
  "Events (2):",
  "  - handler characteristics:",
  "  - using tree strategy"]

/-- The plan of the file that is there shows a pipeline of the default profile, with the sub-profile
once. The plan that goes on with a missing file prints nothing and names this file. -/
theorem plan_ends_shown_or_unloaded :
    (∃ p, (Choice.build ⟨["page"], ⟨"default", ["print"]⟩, 10000⟩ [pageDescriptor]).result = .ok p ∧
      p.planLines "1" = pagePlan ∧
      run bareSurroundings (.plan (repeatingRequest ["page"])) = .print (Text.unlines pagePlan)) ∧
    (runPlan bareSurroundings (repeatingRequest ["page", "gone"])).runAfter "before" =
      (.error (.resources (.io "gone" "gone")), "before") := by
  constructor
  · obtain ⟨ending, hends, -, hrun⟩ :=
      plan_ends bareSurroundings (repeatingRequest ["page"])
    have hlines : (Choice.build ⟨["page"], ⟨"default", ["print"]⟩, 10000⟩
        [pageDescriptor]).result.toOption.map (·.planLines "1") = some pagePlan := by
      decide +kernel
    obtain ⟨p, hbuilt, hlines⟩ := Error.map_toOption_eq_some_iff.1 hlines
    have hshown : Ends bareSurroundings (repeatingRequest ["page"])
        (.ok ((repeatingRequest ["page"]).render bareSurroundings p)) :=
      .shown settingsIn_bareSurroundings (follows_choice _ _) (by decide)
        (.all (.cons gives_page .nil)) hbuilt
    have htext : (repeatingRequest ["page"]).render bareSurroundings p = Text.unlines pagePlan := by
      rw [PlanRequest.render_of_plain rfl, Pipeline.plan, ← hlines]
      rfl
    rw [htext] at hshown
    rw [← (hends _).1 hshown] at hrun
    exact ⟨p, hbuilt, hlines, hrun⟩
  · obtain ⟨ending, hends, hprinted, -⟩ :=
      plan_ends bareSurroundings (repeatingRequest ["page", "gone"])
    have hunloaded : Ends bareSurroundings (repeatingRequest ["page", "gone"])
        (.error (.resources (.io "gone" "gone"))) :=
      .unloaded settingsIn_bareSurroundings (follows_choice _ _)
        (.upTo ["page"] [] (by simpa using ⟨[pageDescriptor], gives_page⟩) (.unread rfl))
    rw [hprinted, ← (hends _).1 hunloaded]

end CommandLine

end DeliveryPipeline
