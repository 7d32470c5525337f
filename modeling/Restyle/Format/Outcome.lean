import Restyle.Failure

/-! # Outcomes of format requests -/
namespace Restyle

inductive Reason where
  | disabled
  | configurationFile
  | notConfigured
  | unsupportedLanguage (message : String)
  /-- The style is for a language that the file does not have. -/
  | languageMismatch (language : String)
deriving Repr, DecidableEq

inductive Outcome where
  | applied (count : Nat)
  | noChanges
  | notApplicable (reason : Reason)
  /-- The document changed meanwhile. -/
  | stale
  | cancelled
deriving Repr, DecidableEq

def Reason.describe : Reason → String
  | disabled => "Disabled"
  | configurationFile => "ConfigurationFile"
  | notConfigured => "NotConfigured"
  | unsupportedLanguage message => s!"UnsupportedLanguage({Text.quote message})"
  | languageMismatch language => s!"LanguageMismatch \x7b language: {Text.quote language} \x7d"

def Outcome.describe : Outcome → String
  | applied count => s!"Applied \x7b count: {count} \x7d"
  | noChanges => "NoChanges"
  | notApplicable reason => s!"NotApplicable({reason.describe})"
  | stale => "Stale"
  | cancelled => "Cancelled"

inductive Stage where
  | styleCheck
  | resolving
  | invoking
  | decoding
  | locating
  | applying
  | done
deriving Repr, DecidableEq

def Stage.name : Stage → String
  | styleCheck => "StyleCheck"
  | resolving => "Resolving"
  | invoking => "Invoking"
  | decoding => "Decoding"
  | locating => "Translating"
  | applying => "Applying"
  | done => "Done"

end Restyle
