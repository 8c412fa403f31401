import Showrunner.NodeKind.Registry
import Showrunner.Render.Service
import Showrunner.Settings.Basic
import Showrunner.Studio
import Showrunner.Time.Duration
import Showrunner.Web.Origins

/-!
# Setting a service up

A service is set up from settings before it answers its first request. A setting that has no
value stops the setup, the first of them in the order in which they are needed.
-/

namespace Showrunner

namespace Web

/-- What a service is set up with. -/
structure Service where
  registry : Registry
  render : Render.Service
  batchLimit : Int
  staleAfter : Option Int
  testsUrl : Text
  testsLifetime : Int
  origins : Origins

namespace Service

/-- Set a service up. -/
def ofSettings (s : Settings) : Except Fault Service := do
  let _ ← s.store
  let render ← s.render
  let dispatch ← s.dispatch
  let tests ← s.tests
  let lifetime ← Duration.ofSeconds tests.lifetime
  let staleAfter ←
    if 0 < dispatch.staleMinutes then (Duration.ofMinutes dispatch.staleMinutes).map some
    else pure none
  pure
    { registry := Registry.empty.withBuiltins s.descriptions
      render := Render.Service.reachedAt render.url render.key (.float render.patience)
      batchLimit := dispatch.batchLimit
      staleAfter := staleAfter
      testsUrl := tests.baseUrl
      testsLifetime := lifetime
      origins := ⟨← s.origins⟩ }

/-- The studio of a new service. -/
def newStudio (s : Service) : Studio := Studio.empty (.empty s.testsUrl s.testsLifetime)

end Service

end Web

end Showrunner
