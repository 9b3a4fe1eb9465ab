import McpworksApi.Py.Hash
import McpworksApi.Py.Regex

/-! The sanitizer of outputs (`core/output_sanitizer.py`): texts that look like credentials are
replaced, then the values of environment variables, and outputs beyond the size limit of the
tier are cut. -/

namespace McpworksApi.Run.OutputSanitizer

open Py

open Regex in
def secretPatterns : List (Regex × String) :=
  let alnum := one isAlnum
  let dashed := one fun c => isAlnum c || c = '-'
  let wordy := one fun c => isAlnum c || c = '_' || c = '-'
  let upper := one fun c => c.isUpper || c = ' '
  [(all [lit "sk-proj-", atLeast 50 wordy], "[REDACTED_API_KEY]"),
    (all [lit "sk-ant-", atLeast 50 wordy], "[REDACTED_API_KEY]"),
    (all [lit "sk_live_", atLeast 12 alnum], "[REDACTED_STRIPE_KEY]"),
    (all [lit "sk_test_", atLeast 12 alnum], "[REDACTED_STRIPE_KEY]"),
    (all [lit "pk_live_", atLeast 12 alnum], "[REDACTED_STRIPE_KEY]"),
    (all [lit "pk_test_", atLeast 12 alnum], "[REDACTED_STRIPE_KEY]"),
    (all [lit "rk_live_", atLeast 12 alnum], "[REDACTED_STRIPE_KEY]"),
    (all [lit "rk_test_", atLeast 12 alnum], "[REDACTED_STRIPE_KEY]"),
    (all [lit "whsec_", atLeast 12 alnum], "[REDACTED_STRIPE_WEBHOOK]"),
    (all [lit "sk-", atLeast 20 alnum], "[REDACTED_API_KEY]"),
    (all [lit "AKIA", times 16 (one fun c => c.isDigit || c.isUpper)], "[REDACTED_AWS_KEY]"),
    (all [lit "ghp_", times 36 alnum], "[REDACTED_GITHUB_TOKEN]"),
    (all [lit "gho_", times 36 alnum], "[REDACTED_GITHUB_TOKEN]"),
    (all [lit "glpat-", atLeast 20 wordy], "[REDACTED_GITLAB_TOKEN]"),
    (all [lit "xoxb-", atLeast 20 dashed], "[REDACTED_SLACK_TOKEN]"),
    (all [lit "xoxp-", atLeast 20 dashed], "[REDACTED_SLACK_TOKEN]"),
    (all [lit "xoxa-", atLeast 20 dashed], "[REDACTED_SLACK_TOKEN]"),
    (all [lit "mcpw_", times 64 (one fun c => c.isDigit || ('a' ≤ c && c ≤ 'f'))], "[REDACTED_MCPWORKS_KEY]"),
    (all [lit "eyJ", plus wordy, lit ".eyJ", plus wordy, lit ".", plus wordy], "[REDACTED_JWT]"),
    (all
      [any [lit "postgres", lit "postgresql", lit "mysql", lit "mongodb", lit "redis", lit "rediss"], lit "://",
        plus (one fun c => !isSpace c && c ≠ '"' && c ≠ '\'')], "[REDACTED_CONNECTION_URI]"),
    (all
      [lit "-----BEGIN", star upper, lit "PRIVATE KEY-----", lazyStar (one fun _ => true), lit "-----END", star upper,
        lit "PRIVATE KEY-----"], "[REDACTED_PRIVATE_KEY]")]

def scrubPatterns (patterns : List (Regex × String)) (s : String) : String × ℕ :=
  patterns.foldl
    (fun acc p =>
      let r := p.1.subn p.2.toList acc.1.toList
      (String.ofList r.1, acc.2 + r.2)) (s, 0)

def minEnvValueLength : ℕ := 8

def secretMarker : String := "[REDACTED:secret_detected]"

def scrubEnvValues (s : String) (envValues : List String) : String × ℕ :=
  envValues.foldl
    (fun acc value =>
      if value.length < minEnvValueLength then acc
      else if contains acc.1 value then (replace acc.1 value secretMarker, acc.2 + 1)
      else acc) (s, 0)

def scrubSecrets (s : String) (envValues : List String) : String × ℕ :=
  let scrubbed := scrubPatterns secretPatterns s
  let cleaned := scrubEnvValues scrubbed.1 envValues
  (cleaned.1, scrubbed.2 + cleaned.2)

def outputSizeLimit (tier : String) : ℕ :=
  if tier = "enterprise" then 5 * 1024 * 1024
  else if tier = "dedicated" then 10 * 1024 * 1024
  else 1 * 1024 * 1024

def clipBytes : ℕ → List Char → List Char
  | _, [] => []
  | n, c :: s => if c.utf8Size ≤ n then c :: clipBytes (n - c.utf8Size) s else []

def enforceOutputSize (s tier : String) : String :=
  let limit := outputSizeLimit tier
  if (encode s).length ≤ limit then s
  else
    String.ofList (clipBytes limit s.toList) ++
      ("\n\n[OUTPUT TRUNCATED: exceeded " ++ toString (limit / 1024) ++ "KB limit for " ++ tier ++ " tier]")

example : scrubSecrets "Key pk_Live_0123456789ab" ["password1"] = ("Key [REDACTED_STRIPE_KEY]", 1) := by
  decide +kernel

end McpworksApi.Run.OutputSanitizer
