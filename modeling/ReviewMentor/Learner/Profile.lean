import ReviewMentor.Level
import ReviewMentor.Timestamp

/-!
# Profiles of learners

What is known about a learner: the level, the findings met so far, and the points earned. A profile
changes by edits; its history is the list of its edits.
-/

namespace ReviewMentor

/-- What a learner said about an explanation. -/
structure Feedback where
  code : String
  helpful : Bool
  level : Level
  time : Timestamp
deriving DecidableEq, Repr

/-- What is known about a learner. Sets and maps are kept in code point order. -/
structure Profile where
  user : String
  level : Level
  concepts : List String
  weakAreas : List String
  /-- How often each rule was met. -/
  seen : List (String × Nat)
  points : Int
  achievements : List String
  quizDone : Bool
  feedback : List Feedback
deriving DecidableEq, Repr

/-- A change of a profile. -/
inductive ProfileEdit where
  | recordIssue (code : String)
  | quiz (score : Nat) (level : Level)
  | adjust (helpful : Bool)
  | feedback (entry : Feedback)
  | setLevel (level : Level)
  | addConcept (concept : String)
deriving DecidableEq, Repr

namespace Profile

/-- The profile of a learner of whom nothing is known. -/
def fresh (user : String) : Profile :=
  ⟨user, Level.default, [], [], [], 0, [], false, []⟩

/-- A rule met more often than this is a weak area. -/
def weakAfter : Nat := 3

/-- A quiz with a score above this earns an achievement. -/
def quickScore : Nat := 80

/-- Counters have 32 bits and go round. -/
def bumped (count : Nat) : Nat := (count + 1) % 2 ^ 32

/-- Points have 64 bits and go round. -/
def addPoints (p : Profile) (points : Int) : Profile :=
  { p with points := (p.points + points).bmod (2 ^ 64) }

/-- The learner met a rule once more. -/
def recordIssue (p : Profile) (code : String) : Profile :=
  let count := bumped ((p.seen.lookup code).getD 0)
  { p with
    seen := Ordered.put code count p.seen
    weakAreas := match if weakAfter < count then Text.firstWord? code else none with
      | some base => Ordered.insert base p.weakAreas
      | none => p.weakAreas }

/-- The learner took a quiz. -/
def takeQuiz (p : Profile) (score : Nat) (level : Level) : Profile :=
  let quick := if quickScore < score then Ordered.insert "quick_learner" p.achievements
    else p.achievements
  let master := if level = .advanced then Ordered.insert "code_master" quick else quick
  { p.addPoints (score * 10) with level, quizDone := true, achievements := master }

/-- The learner found an explanation helpful, or not. -/
def adjust (p : Profile) (helpful : Bool) : Profile :=
  match helpful, p.level with
  | true, .beginner => p.addPoints 5
  | true, .intermediate => p.addPoints 3
  | true, .advanced => p
  | false, .advanced => { p with level := .intermediate }
  | false, .intermediate => p.addPoints (-2)
  | false, .beginner => p

/-- The profile after an edit. -/
def edit (p : Profile) : ProfileEdit → Profile
  | .recordIssue code => p.recordIssue code
  | .quiz score level => p.takeQuiz score level
  | .adjust helpful => p.adjust helpful
  | .feedback entry => { p with feedback := p.feedback ++ [entry] }.adjust entry.helpful
  | .setLevel level => { p with level }
  | .addConcept concept => { p with concepts := Ordered.insert concept p.concepts }

end Profile

namespace Feedback

/-- Writes what a learner said. -/
def toJson (f : Feedback) : Json :=
  .object [("issue_code", .string f.code), ("helpful", .bool f.helpful),
    ("level", f.level.toJson), ("timestamp", .string f.time.render)]

/-- Reads a moment. -/
def readTime (d : Json.Draft) : Except Json.Fault Timestamp := do
  match Timestamp.parse? (← d.text) with
  | some t => pure t
  | none => .error .shape

/-- The fields of what a learner said. -/
def record : Json.Record Feedback :=
  (Json.Record.start Feedback.mk)
    |>.needs ["issue_code"] Json.Draft.text
    |>.needs ["helpful"] Json.Draft.truth
    |>.needs ["level"] Level.read
    |>.needs ["timestamp"] readTime

end Feedback

namespace Profile

/-- Writes a profile. -/
def toJson (p : Profile) : Json :=
  .object [("user_id", .string p.user), ("experience_level", p.level.toJson),
    ("known_concepts", .strings p.concepts), ("weak_areas", .strings p.weakAreas),
    ("seen_issues", .object (p.seen.map fun s => (s.1, .nat s.2))),
    ("flamingo_points", .int p.points), ("achievements", .strings p.achievements),
    ("quiz_completed", .bool p.quizDone), ("feedback_log", .array (p.feedback.map Feedback.toJson))]

/-- Reads a set of texts. -/
def readSet (d : Json.Draft) : Except Json.Fault (List String) :=
  (d.list Json.Draft.text).map Ordered.ofList

/-- Reads the counters of rules. -/
def readSeen (d : Json.Draft) : Except Json.Fault (List (String × Nat)) :=
  (d.table (Json.Draft.natural 32)).map Ordered.ofPairs

/-- The fields of a profile; each of them may be absent. -/
def record : Json.Record Profile :=
  (Json.Record.start Profile.mk)
    |>.defaults "user_id" Json.Draft.text ""
    |>.defaults "experience_level" Level.read Level.default
    |>.defaults "known_concepts" readSet []
    |>.defaults "weak_areas" readSet []
    |>.defaults "seen_issues" readSeen []
    |>.defaults "flamingo_points" (Json.Draft.whole (-2 ^ 63) (2 ^ 63 - 1)) 0
    |>.defaults "achievements" readSet []
    |>.defaults "quiz_completed" Json.Draft.truth false
    |>.defaults "feedback_log" (Json.Draft.list Feedback.record.read) []

/-- Reads a profile. -/
def read : Json.Decode Profile := record.read

end Profile

end ReviewMentor
