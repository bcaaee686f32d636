import Telemetry.Server.Options

/-!
Passwords in the names of data sources. Main statement: nothing is shown of a password up to its
first at sign; a password that has none is left out as a whole, whatever it is, and of any other one
the part behind is shown.
-/
namespace Telemetry.Server

structure Source where
  scheme : String
  user : String
  /-- The host, and what follows it. -/
  rest : String
  plainScheme : ':' ∉ scheme.toList
  plainUser : ':' ∉ user.toList ∧ '@' ∉ user.toList

namespace Source

def name (source : Source) (password : String) : String :=
  source.scheme ++ "://" ++ source.user ++ ":" ++ password ++ "@" ++ source.rest

def shown (source : Source) :
    String := source.scheme ++ "://" ++ source.user ++ ":***@" ++ source.rest

def follow (source : Source) (rest : String) : Source := { source with rest }

end Source

variable {source : Source} {password front : String}

theorem redact_of_cuts {name : String} {scheme rest authority host user secret : List Char}
    (byScheme : Text.cut? "://".toList name.toList = some (scheme, rest))
    (byHost : Text.cut? ['@'] rest = some (authority, host))
    (byColon : Text.cut? [':'] authority = some (user, secret)) :
    redact name = String.ofList (scheme ++ "://".toList ++ user ++ ":***@".toList ++ host) := by
  simp only [redact, byScheme, byHost, byColon, Option.bind_eq_bind, Option.bind_some]
  rfl

theorem toList_name (source : Source) (password : String) :
    (source.name password).toList = source.scheme.toList ++
      ("://".toList ++
        (source.user.toList ++ ':' :: password.toList ++ '@' :: source.rest.toList)) := by
  simp [Source.name]

theorem redact_of_absent (source : Source) (absent : '@' ∉ password.toList) :
    redact (source.name password) = source.shown := by
  have byScheme := Text.cut?_mark source.plainScheme "//".toList
    (source.user.toList ++ ':' :: password.toList ++ '@' :: source.rest.toList)
  have outside : '@' ∉ source.user.toList ++ ':' :: password.toList := by
    simp [source.plainUser.2, absent]
  have byHost := Text.cut?_char outside source.rest.toList
  have byColon := Text.cut?_char source.plainUser.1 password.toList
  rw [redact_of_cuts (toList_name source password ▸ byScheme) byHost byColon]
  apply String.toList_inj.1
  simp [Source.shown]

theorem name_append (source : Source) (front back : String) :
    source.name (front ++ "@" ++ back) =
      (source.follow (back ++ "@" ++ source.rest)).name front := by
  simp [Source.name, Source.follow, String.append_assoc]

theorem redact_of_at (source : Source) (absent : '@' ∉ front.toList) (back : String) :
    redact (source.name (front ++ "@" ++ back)) =
      (source.follow (back ++ "@" ++ source.rest)).shown := by
  rw [name_append]
  exact redact_of_absent _ absent

/-- Of a password without an at sign nothing is shown, so that no two of them can be told apart; one
that has an at sign shows what is behind the first. -/
theorem passwords_are_redacted (source : Source) :
    (∀ password : String, '@' ∉ password.toList → redact (source.name password) = source.shown) ∧
      (∀ password other : String, '@' ∉ password.toList → '@' ∉ other.toList →
        redact (source.name password) = redact (source.name other)) ∧
      ∀ front back : String, '@' ∉ front.toList →
        redact (source.name (front ++ "@" ++ back)) =
          (source.follow (back ++ "@" ++ source.rest)).shown := by
  refine ⟨fun password absent => redact_of_absent source absent, ?_,
    fun front back absent => redact_of_at source absent back⟩
  intro password other absent absentOther
  calc redact (source.name password) = source.shown := redact_of_absent source absent
    _ = redact (source.name other) := (redact_of_absent source absentOther).symm

def metricsSource : Source where
  scheme := "postgres"
  user := "u"
  rest := "db:5432/metrics"
  plainScheme := by decide
  plainUser := by decide

/-- A password with colons. -/
theorem colons_are_redacted :
    '@' ∉ "p:q:".toList ∧ redact (metricsSource.name "p:q:") = metricsSource.shown ∧
      metricsSource.shown = "postgres://u:***@db:5432/metrics" := by
  have absent : '@' ∉ "p:q:".toList := by decide
  exact ⟨absent, (passwords_are_redacted metricsSource).1 "p:q:" absent, by decide⟩

/-- A password with an at sign, which a database takes as it is: only the last one ends it there. -/
theorem password_behind_at_is_shown :
    redact (metricsSource.name "p@ss") = "postgres://u:***@ss@db:5432/metrics" ∧
      ¬ ∀ (source : Source) (password : String), '@' ∉ source.rest.toList →
        (∀ c ∈ password.toList, c ∉ ['/', '?', '#']) →
          redact (source.name password) = source.shown := by
  refine ⟨by decide, ?_⟩
  intro hides
  have hidden := hides metricsSource "p@ss" (by decide) (by simp)
  revert hidden
  decide

end Telemetry.Server
