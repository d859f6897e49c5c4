import ReviewMentor.Service.Basic

/-!
# Learning over the service

Explanations of issues, what learners say about them, and the profiles of learners.
-/

namespace ReviewMentor

/-- An issue that a learner wants to have explained. -/
structure Question where
  issue : Issue
  user : String
  useAi : Bool

/-- What a learner says about an explanation. -/
structure Opinion where
  user : String
  code : String
  helpful : Bool
  level : Level

namespace Question

/-- Reads a question. -/
def read : Json.Decode Question :=
  ((Json.Record.start Question.mk)
    |>.needs ["issue"] Issue.read
    |>.needs ["user_id"] Json.Draft.text
    |>.defaults "use_ai" Json.Draft.truth false).read

end Question

namespace Opinion

/-- Reads an opinion. -/
def read : Json.Decode Opinion :=
  ((Json.Record.start Opinion.mk)
    |>.needs ["user_id"] Json.Draft.text
    |>.needs ["issue_code"] Json.Draft.text
    |>.needs ["was_helpful"] Json.Draft.truth
    |>.needs ["explanation_level"] Level.read).read

end Opinion

/-- Reads a level that a learner chooses. -/
def readChosenLevel : Json.Decode ProfileEdit :=
  ((Json.Record.start ProfileEdit.setLevel).needs ["level"] Level.read).read

/-- Reads the outcome of a quiz. -/
def readQuiz : Json.Decode ProfileEdit :=
  ((Json.Record.start ProfileEdit.quiz)
    |>.needs ["score"] (Json.Draft.natural 32)
    |>.needs ["level"] Level.read).read

namespace Service

/-- Explains an issue to a learner. -/
def explain (s : Service) (r : Http.Request) : Handling Http.Response := do
  let q ← ExceptT.mk (pure (s.readJson Question.read r))
  let e ← Handling.onFiles .ofProfile (s.teacher.explain s.here s.send q.issue q.user q.useAi)
  pure (.ofJson e.toJson)

/-- Shows the template for a rule. -/
def showTemplate (code : String) (r : Http.Request) : Handling Http.Response := do
  let code ← ExceptT.mk (pure (partAsked code))
  let level? ← ExceptT.mk (pure (levelAsked r))
  pure (.ofJson (Template.find code (level?.getD Level.default)).toJson)

/-- Stores what a learner says about an explanation. -/
def logFeedback (s : Service) (now : Timestamp) (r : Http.Request) : Handling Http.Response := do
  let o ← ExceptT.mk (pure (s.readJson Opinion.read r))
  let entry : Feedback := ⟨o.code, o.helpful, o.level, now⟩
  let _ ← Handling.onFiles .ofProfile (s.teacher.profiles.edit s.here o.user (.feedback entry))
  pure (.ofJson (.object [("status", .string "feedback_recorded")]))

/-- Shows the profile of a learner. -/
def showProfile (s : Service) (user : String) : Handling Http.Response := do
  let user ← ExceptT.mk (pure (partAsked user))
  let p ← Handling.onFiles .ofProfile (Disk.ask (s.teacher.profiles.get s.here user))
  pure (.ofJson p.toJson)

/-- Changes the profile of a learner as the body of the request says. -/
def changeProfile (s : Service) (user : String) (read : Json.Decode ProfileEdit)
    (r : Http.Request) : Handling Http.Response := do
  let user ← ExceptT.mk (pure (partAsked user))
  let edit ← ExceptT.mk (pure (s.readJson read r))
  let p ← Handling.onFiles .ofProfile (s.teacher.profiles.edit s.here user edit)
  pure (.ofJson p.toJson)

end Service

end ReviewMentor
