import McpworksApi.Models.Columns
import McpworksApi.Py.Dict
import McpworksApi.Services.GitImport

/-! The packages that functions may ask for (`sandbox/packages.py`, `sandbox/packages_node.py`). A name is looked up
without regard to case and surrounding blanks, among the names of the list and then among their aliases; what is kept
of a requirement is the name in the list. -/

namespace McpworksApi.Packages

open Models Py Services.GitImport

structure Package where
  name : String
  aliases : List String := []

structure AllowList where
  packages : List Package
  advice : String

def pythonList : AllowList where
  packages := [
    -- HTTP, data formats and validation
    ⟨"requests", []⟩, ⟨"httpx", []⟩, ⟨"urllib3", []⟩, ⟨"aiohttp", []⟩, ⟨"websockets", []⟩,
      ⟨"pyyaml", ["yaml"]⟩, ⟨"orjson", []⟩,
    ⟨"tomli", []⟩, ⟨"tomli-w", []⟩, ⟨"xmltodict", []⟩, ⟨"msgpack", []⟩, ⟨"pydantic", []⟩,
      ⟨"attrs", []⟩, ⟨"jsonschema", []⟩,
    -- text and time
    ⟨"beautifulsoup4", ["bs4"]⟩, ⟨"lxml", []⟩, ⟨"markdownify", []⟩, ⟨"markdown", []⟩,
      ⟨"html2text", []⟩, ⟨"chardet", []⟩,
    ⟨"python-slugify", ["slugify"]⟩, ⟨"jinja2", []⟩, ⟨"regex", []⟩,
      ⟨"python-dateutil", ["dateutil"]⟩, ⟨"pytz", []⟩, ⟨"arrow", []⟩,
    -- data science
    ⟨"numpy", []⟩, ⟨"pandas", []⟩, ⟨"scipy", []⟩, ⟨"scikit-learn", ["sklearn"]⟩, ⟨"sympy", []⟩, ⟨"statsmodels", []⟩,
    ⟨"matplotlib", []⟩, ⟨"pillow", ["PIL"]⟩,
    -- models, clouds and services
    ⟨"openai", []⟩, ⟨"anthropic", []⟩, ⟨"tiktoken", []⟩, ⟨"cohere", []⟩, ⟨"boto3", []⟩,
      ⟨"stripe", []⟩, ⟨"sendgrid", []⟩,
    ⟨"twilio", []⟩, ⟨"google-cloud-storage", []⟩,
    -- file formats
    ⟨"openpyxl", []⟩, ⟨"xlsxwriter", []⟩, ⟨"tabulate", []⟩, ⟨"feedparser", []⟩, ⟨"python-docx", []⟩, ⟨"pypdf", []⟩,
    -- security, databases and utilities
    ⟨"cryptography", []⟩, ⟨"pyjwt", ["jwt"]⟩, ⟨"bcrypt", []⟩, ⟨"psycopg2-binary", ["psycopg2"]⟩,
      ⟨"pymongo", []⟩, ⟨"redis", []⟩,
    ⟨"humanize", []⟩, ⟨"tqdm", []⟩, ⟨"rich", []⟩, ⟨"typing-extensions", []⟩]
  advice := "Use the list_packages tool to see available packages."

def nodeList : AllowList where
  packages := [
    ⟨"lodash", []⟩, ⟨"uuid", []⟩, ⟨"date-fns", []⟩, ⟨"zod", []⟩, ⟨"ajv", []⟩, ⟨"csv-parse", []⟩,
      ⟨"csv-stringify", []⟩, ⟨"yaml", []⟩,
    ⟨"xml2js", []⟩, ⟨"cheerio", []⟩, ⟨"marked", []⟩, ⟨"axios", []⟩, ⟨"jsonwebtoken", ["jwt"]⟩,
      ⟨"bcryptjs", ["bcrypt"]⟩, ⟨"openai", []⟩,
    ⟨"@anthropic-ai/sdk", ["anthropic"]⟩]
  advice := "Use list_packages(language='typescript') to see available packages."

def allowList : Language → AllowList
  | .typescript => nodeList
  | .python => pythonList

namespace AllowList

def names (l : AllowList) : List String := l.packages.map (·.name)

def aliasMap (l : AllowList) : List (String × String) :=
  (l.packages.flatMap fun p => p.aliases.map fun a => (lower a, p.name)).foldl (upsert Prod.fst) []

def resolveName (l : AllowList) (name : String) : Option String :=
  let normalized := lower (strip name)
  if normalized ∈ l.names then some normalized
  else (l.aliasMap.find? (·.1 = normalized)).map Prod.snd

def asRequirement : Json → Except ApiError String
  | .str s => .ok s
  | j => .error (.py .attributeError ("'" ++ j.typeName ++ "' object has no attribute 'strip'"))

def validateFrom (l : AllowList) : List Json → List String → List String → Except ApiError (List String × List String)
  | [], validated, errors => .ok (validated, errors)
  | item :: items, validated, errors => do
    let req ← asRequirement item
    match l.resolveName req with
    | none => validateFrom l items validated (errors ++ ["Package '" ++ req ++ "' is not in the allowed list. " ++ l.advice])
    | some canonical => validateFrom l items (if canonical ∈ validated then validated else validated ++ [canonical]) errors

def validateRequirements (l : AllowList) (requirements : Json) : Except ApiError (List String × List String) := do
  let items ← iterate requirements
  l.validateFrom items [] []

end AllowList

def validateRequirementsForLanguage (requirements : Json) (language : Language) :
    Except ApiError (List String × List String) :=
  (allowList language).validateRequirements requirements

def Accepted (language : Language) (requirement : String) : Prop :=
    ((allowList language).resolveName requirement).isSome

instance (language : Language) (requirement : String) : Decidable (Accepted language requirement) :=
  inferInstanceAs (Decidable (_ = true))

variable {l : AllowList}

theorem mem_names_of_resolveName {name can : String} (h : l.resolveName name = some can) : can ∈ l.names := by
  unfold AllowList.resolveName at h
  dsimp only at h
  split at h
  · rename_i hm
    exact Option.some.inj h ▸ hm
  · -- an alias leads to the package that has it
    obtain ⟨e, he, rfl⟩ := Option.map_eq_some_iff.mp h
    have hm := List.mem_of_find?_eq_some he
    rcases mem_foldl_upsert hm with hn | hm
    · cases hn
    · obtain ⟨p, hp, hpe⟩ := List.mem_flatMap.mp hm
      obtain ⟨a, -, rfl⟩ := List.mem_map.mp hpe
      exact List.mem_map_of_mem hp

theorem mem_names_of_validateFrom {its : List Json} {vd errs vd' errs' : List String}
    (h : l.validateFrom its vd errs = .ok (vd', errs')) (hv : ∀ r ∈ vd, r ∈ l.names) :
    ∀ r ∈ vd', r ∈ l.names := by
  induction its generalizing vd errs with
  | nil =>
    cases h
    exact hv
  | cons item its ih =>
    obtain ⟨req, -, h⟩ := bind_eq_ok.mp h
    cases hn : l.resolveName req with
    | none =>
      rw [hn] at h
      exact ih h hv
    | some can =>
      rw [hn] at h
      apply ih h
      intro r hr
      split at hr
      · exact hv r hr
      · rcases List.mem_append.mp hr with hr | hr
        · exact hv r hr
        · rw [List.mem_singleton.mp hr]
          exact mem_names_of_resolveName hn

theorem normalized_names (lang : Language) : ∀ n ∈ (allowList lang).names, lower (strip n) = n := by
  cases lang <;> decide +kernel

theorem accepted_of_mem {lang : Language} {r : String} (h : r ∈ (allowList lang).names) : Accepted lang r := by
  have hs : (allowList lang).resolveName r = some r := by
    unfold AllowList.resolveName
    rw [normalized_names lang r h]
    exact if_pos h
  unfold Accepted
  rw [hs]
  rfl

theorem accepted_of_validate {reqs : Json} {lang : Language} {vd errs : List String}
    (h : validateRequirementsForLanguage reqs lang = .ok (vd, errs)) : ∀ r ∈ vd, Accepted lang r := by
  obtain ⟨its, -, h⟩ := bind_eq_ok.mp h
  intro r hr
  exact accepted_of_mem (mem_names_of_validateFrom h nofun r hr)

end McpworksApi.Packages
