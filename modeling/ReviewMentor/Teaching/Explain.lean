import ReviewMentor.Ai.Client
import ReviewMentor.Learner.Store
import ReviewMentor.Teaching.Prompt
import ReviewMentor.Teaching.Sections
import ReviewMentor.Teaching.TemplateTable

/-!
# Explanations

What a learner is told about an issue. A model is asked where there is one and the learner wants
it; what it does not answer in sections, the built-in explanations say. Asking for an explanation
counts as meeting the rule once more.
-/

namespace ReviewMentor

/-- Where an explanation comes from. -/
inductive Source where
  | template
  | ai
deriving DecidableEq, Repr

/-- What a learner is told about an issue. -/
structure Explanation where
  title : String
  why : String
  fix : String
  sample : String
  tip : Option String
  level : Level
  source : Source
deriving DecidableEq, Repr

namespace Explanation

/-- What learners that know about objects are told in addition. -/
def objectAdvice : String :=
  "\n\nSince you know OOP: Consider refactoring into smaller methods."

/-- The explanation that a filled template gives. -/
def ofTemplate (t : Template) (level : Level) : Explanation :=
  ⟨t.title, t.why, t.fix, t.sample, none, level, .template⟩

/-- The explanation that the sections of an answer give. -/
def ofSections (title : String) (s : Sections) (level : Level) : Explanation :=
  ⟨title, s.why, s.fix, s.sample, if s.tip = "" then none else some s.tip, level, .ai⟩

/-- The sections that a model answers, if it answers in sections. -/
def ask? (send : Transport) (client : Client) (i : Issue) (level : Level) : Option Sections := do
  let answer ← (send (client.request [⟨.user, i.prompt level⟩] (some systemPrompt))).toOption
  let sections := Sections.parse answer
  if sections.isEmpty then none else some sections

/-- The explanation of an issue for a learner. -/
def forLearner (send : Transport) (client? : Option Client) (i : Issue) (p : Profile) :
    Explanation :=
  let template := (Template.find i.code p.level).fill i
  let base := match client?.bind fun client => ask? send client i p.level with
    | some sections => ofSections template.title sections p.level
    | none => ofTemplate template p.level
  if "OOP" ∈ p.concepts then { base with fix := base.fix ++ objectAdvice } else base

/-- Writes an explanation. -/
def toJson (e : Explanation) : Json :=
  .object
    ([("title", .string e.title), ("why", .string e.why), ("fix", .string e.fix),
      ("example", .string e.sample)] ++
    Issue.optionalMember "advanced_tip" .string e.tip ++
    [("level", e.level.toJson),
      ("source", .string (match e.source with | .template => "template" | .ai => "ai"))])

end Explanation

/-- What explains issues: stored profiles, and a model if there is one. -/
structure Teacher where
  profiles : ProfileStore
  client? : Option Client

namespace Teacher

/-- Explains an issue to a learner, who has then met the rule once more. -/
def explain (t : Teacher) (start : Place) (send : Transport) (i : Issue) (user : String)
    (useAi : Bool) : Disk ProfileError Explanation := do
  let p ← t.profiles.edit start user (.recordIssue i.code)
  pure (Explanation.forLearner send (if useAi then t.client? else none) i p)

end Teacher

end ReviewMentor
