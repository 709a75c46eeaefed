import SlogHelpers.Options

/-!
Configurations: entries in the order in which they were given, repetitions included. Documents and
options both end up here, and only resolving a configuration decides which of two entries counts.
-/
namespace SlogHelpers

structure LoggerSettings where
  api : Option String := none
  context : Bool := false
  deriving DecidableEq, Inhabited

/-- Entries as they were given. -/
structure Config where
  pkg : Option String := none
  imports : List String := []
  levels : List (String × Severity) := []
  constants : List String := []
  attributes : List (String × String) := []
  logger : Option LoggerSettings := none
  deriving DecidableEq, Inhabited

/-- The settings after options: a style that they name takes the place of the old one, and a context
stays once it is asked for. -/
def LoggerSettings.override (settings : LoggerSettings) (options : Options) : LoggerSettings :=
  { api := options.api.or settings.api, context := settings.context || options.context }

namespace Config

/-- The logger after options, which may call for one that was not there. -/
def layeredLogger (logger : Option LoggerSettings) (options : Options) : Option LoggerSettings :=
  (if options.logger then some (logger.getD {}) else logger).map (·.override options)

/-- Lays options over a configuration. Their entries come last and so win where only one may count.
All pairs are read before anything is added: the first bad level, or else the first bad attribute,
is the answer. -/
def layer (config : Config) (options : Options) : Except ConfigFault Config := do
  let levels ← options.levels.mapM Options.readLevel
  let attributes ← options.attributes.mapM Options.readAttribute
  pure {
    pkg := options.pkg.or config.pkg
    imports := config.imports ++ options.imports
    levels := config.levels ++ levels
    constants := config.constants ++ options.constants
    attributes := config.attributes ++ attributes
    logger := layeredLogger config.logger options }

/-! The same in place, where each part of the configuration changes after the other. -/

def changeLogger (change : LoggerSettings → LoggerSettings) (config : Config) : Config :=
  { config with logger := config.logger.map change }

/-- Adds a logger if options ask for one and there is none, and has it as they want it. -/
def updateLogger (options : Options) : StateM Config Unit := do
  if options.logger && (← get).logger.isNone then
    modify fun config => { config with logger := some {} }
  if let some api := options.api then
    modify (changeLogger fun settings => { settings with api := some api })
  if options.context then
    modify (changeLogger fun settings => { settings with context := true })

def update (options : Options) (levels : List (String × Severity))
    (attributes : List (String × String)) :
    StateM Config Unit := do
  if let some pkg := options.pkg then
    modify fun config => { config with pkg := some pkg }
  modify fun config => { config with imports := config.imports ++ options.imports }
  modify fun config => { config with levels := config.levels ++ levels }
  modify fun config => { config with constants := config.constants ++ options.constants }
  modify fun config => { config with attributes := config.attributes ++ attributes }
  updateLogger options

def apply (options : Options) : ExceptT ConfigFault (StateM Config) Unit := do
  let levels ← ExceptT.mk (pure (options.levels.mapM Options.readLevel))
  let attributes ← ExceptT.mk (pure (options.attributes.mapM Options.readAttribute))
  update options levels attributes

def ofOptions (options : Options) : Except ConfigFault Config :=
  layer {} options

end Config
end SlogHelpers
