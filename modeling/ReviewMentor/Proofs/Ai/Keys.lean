import Mathlib.Tactic.Common
import ReviewMentor.Ai.Client

/-!
# Which key a client uses

The settings and the client both read the name of a service, and not in the same way: the client
takes any spelling, while the settings know the services by their exact names and take every other
name for that of deepseek. So one spelling is answered with the key of another service.
-/

namespace ReviewMentor

variable {s : Settings} {b : Backend} {word : String} {c : Client} {key : String}
  {lookup : String → Option String}

/-! ### Names of services -/

namespace Backend

theorem find_name (b : Backend) : all.find? (·.name = b.name) = some b := by
  cases b <;> rfl

/-- A service is known by its name, in any case and with blanks around it. -/
theorem parse_eq_ok_iff : parse word = .ok b ↔ Text.lower (Text.trim word) = b.name := by
  unfold parse
  generalize Text.lower (Text.trim word) = spelt
  constructor
  · intro h
    rcases hfound : all.find? (·.name = spelt) with _ | found <;> simp only [hfound] at h
    · simp at h
    · obtain rfl : found = b := Except.ok.inj h
      have hname : found.name = spelt := by simpa using List.find?_some hfound
      exact hname.symm
  · rintro rfl
    simp only [find_name]

/-- A service that is named exactly. -/
theorem parse_name (b : Backend) : parse b.name = .ok b := by
  cases b <;> decide +kernel

theorem eq_of_parse_name {other : Backend} (h : parse other.name = .ok b) : other = b :=
  Except.ok.inj ((parse_name other).symm.trans h)

end Backend

/-! ### Where a key comes from -/

namespace Settings

/-- The variable in which the key of a service is looked for, if the service wants one. -/
def keySource (word : String) : Backend → String
  | .openAi => if word = Backend.openAi.name then "OPENAI_API_KEY" else "DEEPSEEK_API_KEY"
  | _ => "DEEPSEEK_API_KEY"

/-- The settings look for the key of a service in its source. -/
theorem keyVariable?_eq (hparse : Backend.parse word = .ok b) (hneeds : b.needsKey = true) :
    keyVariable? word = some (keySource word b) := by
  have hollama : word ≠ "ollama" := by
    rintro rfl
    obtain rfl : Backend.ollama = b := Backend.eq_of_parse_name hparse
    simp [Backend.needsKey] at hneeds
  unfold keyVariable?
  cases b with
  | deepSeek =>
    have hopen : word ≠ "openai" := by
      rintro rfl
      have hsame : Backend.openAi = .deepSeek := Backend.eq_of_parse_name hparse
      simp at hsame
    rw [if_neg hopen, if_neg hollama]
    rfl
  | openAi =>
    by_cases hopen : word = "openai"
    · rw [if_pos hopen]
      exact congrArg some (if_pos hopen).symm
    · rw [if_neg hopen, if_neg hollama]
      exact congrArg some (if_neg hopen).symm
  | ollama => simp [Backend.needsKey] at hneeds

/-- The source is the variable of the service itself, unless openai is not named exactly. -/
theorem keySource_eq_iff (hneeds : b.needsKey = true) :
    b.keyVariable? = some (keySource word b) ↔ (b = .openAi → word = "openai") := by
  cases b with
  | deepSeek => simp [keySource, Backend.keyVariable?]
  | openAi =>
    by_cases hopen : word = "openai" <;>
      simp [keySource, Backend.keyVariable?, Backend.name, hopen]
  | ollama => simp [Backend.needsKey] at hneeds

/-- The key for a service: the value of its source, or what the settings say. -/
def chosenKey? (s : Settings) (lookup : String → Option String) (b : Backend) : Option String :=
  (lookup (keySource s.ai.backend b)).orElse fun _ => s.ai.key

end Settings

/-! ### Clients -/

namespace Client

variable {settings : AiSettings}

theorem ofSettings_off (h : settings.enabled = false) : ofSettings settings = .ok none := by
  unfold ofSettings
  rw [h]
  rfl

theorem ofSettings_unknown {e : AiError} (hon : settings.enabled = true)
    (hparse : Backend.parse settings.backend = .error e) : ofSettings settings = .error e := by
  unfold ofSettings
  rw [hon, hparse]
  rfl

/-- The client of a service that is known, with the key that it uses. -/
def ofBackend (settings : AiSettings) (b : Backend) (key : String) : Client :=
  { backend := b, model? := settings.model, url? := settings.url
    tokenLimit := settings.tokenLimit, temperature := settings.temperature
    timeoutSeconds := settings.timeoutSeconds, key }

theorem ofSettings_local (hon : settings.enabled = true)
    (hparse : Backend.parse settings.backend = .ok b) (hneeds : b.needsKey = false) :
    ofSettings settings = .ok (some (ofBackend settings b localKey)) := by
  unfold ofSettings
  rw [hon, hparse]
  show (if !b.needsKey then _ else _) = _
  rw [hneeds]
  rfl

theorem ofSettings_keyed (hon : settings.enabled = true)
    (hparse : Backend.parse settings.backend = .ok b) (hneeds : b.needsKey = true) :
    ofSettings settings =
      match settings.key.filter fun k => !Text.isAllBlank k with
      | some key => .ok (some (ofBackend settings b key))
      | none => .error (.missingKey (b.keyVariable?.getD "")) := by
  unfold ofSettings
  rw [hon, hparse]
  show (if !b.needsKey then _ else _) = _
  rw [hneeds]
  rfl

/-- A client of a service that wants a key has the one that is set, unless that is blank. -/
theorem ofSettings_eq_ok_iff (hneeds : b.needsKey = true) :
    (∃ c, ofSettings settings = .ok (some c) ∧ c.backend = b ∧ c.key = key) ↔
      settings.enabled = true ∧ Backend.parse settings.backend = .ok b ∧
        settings.key = some key ∧ Text.isAllBlank key = false := by
  constructor
  · rintro ⟨c, hc, rfl, rfl⟩
    rcases hon : settings.enabled with _ | _
    · rw [ofSettings_off hon] at hc
      simp at hc
    rcases hparse : Backend.parse settings.backend with e | found
    · rw [ofSettings_unknown hon hparse] at hc
      simp at hc
    rcases hfound : found.needsKey with _ | _
    · rw [ofSettings_local hon hparse hfound] at hc
      obtain rfl : ofBackend settings found localKey = c := Option.some.inj (Except.ok.inj hc)
      exact absurd hneeds (by simp [ofBackend, hfound])
    · rw [ofSettings_keyed hon hparse hfound] at hc
      split at hc
      · next key hkey =>
        obtain rfl : ofBackend settings found key = c := Option.some.inj (Except.ok.inj hc)
        obtain ⟨hset, hblank⟩ := Option.filter_eq_some_iff.mp hkey
        exact ⟨rfl, rfl, hset, by simpa [ofBackend] using hblank⟩
      · simp at hc
  · rintro ⟨hon, hparse, hset, hblank⟩
    have hkey : (settings.key.filter fun k => !Text.isAllBlank k) = some key :=
      Option.filter_eq_some_iff.mpr ⟨hset, by simpa using hblank⟩
    refine ⟨ofBackend settings b key, ?_, rfl, rfl⟩
    rw [ofSettings_keyed hon hparse hneeds, hkey]

end Client

/-- **A client has the key of its own service, unless openai is spelt otherwise.** A client that
needs a key is made if a key that is not blank is found where its service has one: in the variable
of the service, or else in the settings. Only openai has to be named exactly for that; in every
other spelling it is given the key of deepseek. -/
theorem client_key_iff (lookup : String → Option String) (s : Settings) (b : Backend)
    (hneeds : b.needsKey = true) (key : String) :
    ((∃ c, Client.ofSettings (s.applyEnvironment lookup).ai = .ok (some c) ∧ c.backend = b ∧
        c.key = key) ↔
      s.ai.enabled = true ∧ Text.lower (Text.trim s.ai.backend) = b.name ∧
        s.chosenKey? lookup b = some key ∧ Text.isAllBlank key = false) ∧
    (b.keyVariable? = some (Settings.keySource s.ai.backend b) ↔
      (b = .openAi → s.ai.backend = "openai")) := by
  refine ⟨?_, Settings.keySource_eq_iff hneeds⟩
  rw [Client.ofSettings_eq_ok_iff hneeds, ← Backend.parse_eq_ok_iff]
  refine and_congr_right fun _ => and_congr_right fun hparse => ?_
  have hsource : Settings.keyVariable? s.ai.backend = some (Settings.keySource s.ai.backend b) :=
    Settings.keyVariable?_eq hparse hneeds
  have hkey : (s.applyEnvironment lookup).ai.key = s.chosenKey? lookup b := by
    show ((Settings.keyVariable? s.ai.backend).bind lookup).orElse _ = _
    rw [hsource]
    rfl
  rw [hkey]

/-- An environment with a key for each service. -/
def twoKeys : String → Option String
  | "DEEPSEEK_API_KEY" => some "d"
  | "OPENAI_API_KEY" => some "o"
  | _ => none

/-- Settings that name a service in their own way. -/
def namingService (word : String) : Settings :=
  { Settings.standard with ai := { AiSettings.standard with backend := word } }

theorem client_key_iff_exact :
    Backend.openAi.needsKey = true ∧
    (∃ c, Client.ofSettings ((namingService "openai").applyEnvironment twoKeys).ai = .ok (some c) ∧
      c.backend = .openAi ∧ c.key = "o") ∧
    Backend.openAi.keyVariable? = some (Settings.keySource "openai" .openAi) := by
  obtain ⟨hclient, hsource⟩ := client_key_iff twoKeys (namingService "openai") .openAi rfl "o"
  exact ⟨rfl, hclient.mpr ⟨rfl, by decide +kernel, rfl, rfl⟩, hsource.mpr fun _ => rfl⟩

/-- In another spelling, openai is given the key of deepseek. -/
theorem capital_openai_has_other_key :
    ((Client.ofSettings ((namingService "OpenAI").applyEnvironment twoKeys).ai).map
      (·.map fun c => (c.backend, c.key))) = .ok (some (.openAi, "d")) := by
  decide +kernel

end ReviewMentor
