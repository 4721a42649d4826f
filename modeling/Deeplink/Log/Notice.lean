import Deeplink.Log.Level

/-!
# Notices

What the service writes to its log. Rejections and failures are noted with the method, the command
and the code of the error, and commands that have succeeded at the level for debugging
(specification, 4.2).

- `Log.Source`: the parts of the service that write notices, and the names of their loggers.
- `Log.Context`: the command, the error and the path that a notice is about.
- `Log.Notice`: a level, a source, a message, a context and the class of an exception.
-/

namespace Deeplink.Log

/-- The parts of the service that write notices. -/
inductive Source where
  | fragment
  | dispatch
  | registry
  | errors
  | endpoints
  | service
  deriving DecidableEq

/-- The name of the logger of a part. -/
def Source.name : Source → Text
  | .fragment => "hash_commands.core.parse_hash"
  | .dispatch => "hash_commands.services.command_dispatch"
  | .registry => "hash_commands.services.command_registry"
  | .errors => "hash_commands.api.error_handlers"
  | .endpoints => "hash_commands.api.routes.hash_commands"
  | .service => "hash_commands.main"

/-- What a notice is about, as far as that is set. -/
structure Context where
  method : Option Text := none
  command : Option Text := none
  errorCode : Option Text := none
  position : Option Int := none
  path : Option Text := none
  deriving DecidableEq

structure Notice where
  level : Level
  source : Source
  message : Text
  context : Context := {}
  exception : Option Text := none
  deriving DecidableEq

end Deeplink.Log
