import Showrunner.Text.Basic

/-!
# Shipped settings

The documents that the service comes with: its settings, and what it says about the kinds of nodes.
-/

namespace Showrunner

namespace Settings

/-- The settings that the service comes with. -/
def shippedSettings : Text :=
  Text.joined (text "\n") <| List.map text
    ["[store]", "path = data/contentflow.db", "busy_timeout = 30", "",
      "[backend]", "url =", "api_key =", "timeout_seconds = 30", "",
      "[dispatch]", "batch_limit = 20", "stale_after_minutes = 30", "max_workers = 1",
      "interval_seconds = 0", "",
      "[webhook_test]", "base_url = http://127.0.0.1:8000", "ttl_seconds = 300",
      "sweep_interval_seconds = 60", "",
      "[api]", "cors_origins = http://127.0.0.1:5173, http://localhost:5173", "",
      "[logging]", "level = INFO", ""]

/-- What the service says about the kinds of nodes. -/
def shippedKinds : Text :=
  Text.joined (text "\n") <| List.map text
    ["kinds:",
      "  trigger:",
      "    description: Starts the workflow from a webhook call, a schedule or a manual run.",
      "  filter:",
      "    description: Continues on the true branch when the expression holds, otherwise on the false branch.",
      "  switch:",
      "    description: Picks the branch whose case value matches the expression.",
      "  http-request:",
      "    description: Sends an HTTP request and passes the response on.",
      "  gen-ai:",
      "    description: Generates text or media with a language model.",
      "  delay:",
      "    description: Pauses the run for a duration or until a given time.",
      ""]

end Settings

end Showrunner
