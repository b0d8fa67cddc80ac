import PamDesktop.Php.Manifest

/-!
# Windows in PHP

`Window` checks its values where it is constructed, its identifier only where it becomes an array.
-/

namespace PamDesktop.Php

open Foundations Protocol

/-- The properties of `Window`. -/
structure WindowValues where
  entry : String
  title : String
  width : Int
  height : Int
  minWidth : Int
  minHeight : Int
  resizable : Bool
  visible : Bool
  theme : WindowTheme
  decorated : Bool
  transparent : Bool
  alwaysOnTop : Bool
  maximized : Bool
  fullscreen : Bool

/-- `Window::__construct`. -/
def WindowValues.check (values : WindowValues) : Except String Unit :=
  if values.entry == "" || (osString values.entry).head? == some 47 ||
      parentPattern.pregMatch (osString values.entry) then
    .error "The desktop entry must be a relative path inside the project."
  else if trim (osString values.title) == [] then .error "The window title cannot be empty."
  else if values.minWidth < 320 || values.minHeight < 240 then
    .error "The minimum window size is 320x240."
  else if values.width < values.minWidth || values.height < values.minHeight then
    .error "The initial window size cannot be smaller than its minimum size."
  else .ok ()

/-- `Window`. -/
structure Window extends WindowValues where
  checked : toWindowValues.check = .ok ()

namespace Window

def make (values : WindowValues) : Except String Window :=
  construct values.check fun checked => { values with checked }

/-- `Window::create`. -/
def create (title : String) : Except String Window :=
  make { entry := "resources/index.html", title, width := 1120, height := 720, minWidth := 720,
         minHeight := 520, resizable := true, visible := true, theme := .system,
         decorated := true, transparent := false, alwaysOnTop := false, maximized := false,
         fullscreen := false }

/-- The methods of `Window`. -/
inductive Call where
  | entry (entry : String)
  | load (path : String)
  | size (width height : Int)
  | minimumSize (width height : Int)
  | resizable (resizable : Bool)
  | visible (visible : Bool)
  | theme (theme : WindowTheme)
  | decorated (decorated : Bool)
  | transparent (transparent : Bool)
  | alwaysOnTop (alwaysOnTop : Bool)
  | maximized (maximized : Bool)
  | fullscreen (fullscreen : Bool)

/-- `Window::appearance`. -/
def appearance (window : Window)
    (decorated transparent alwaysOnTop maximized fullscreen : Option Bool) :
    Except String Window :=
  make { window.toWindowValues with
    decorated := decorated.getD window.decorated
    transparent := transparent.getD window.transparent
    alwaysOnTop := alwaysOnTop.getD window.alwaysOnTop
    maximized := maximized.getD window.maximized
    fullscreen := fullscreen.getD window.fullscreen }

def call (window : Window) : Call → Except String Window
  | .entry entry => make { window.toWindowValues with entry }
  | .load path => make { window.toWindowValues with entry := path }
  | .size width height => make { window.toWindowValues with width, height }
  | .minimumSize width height =>
      make { window.toWindowValues with minWidth := width, minHeight := height }
  | .resizable resizable => make { window.toWindowValues with resizable }
  | .visible visible => make { window.toWindowValues with visible }
  | .theme theme => make { window.toWindowValues with theme }
  | .decorated decorated => window.appearance (some decorated) none none none none
  | .transparent transparent => window.appearance none (some transparent) none none none
  | .alwaysOnTop alwaysOnTop => window.appearance none none (some alwaysOnTop) none none
  | .maximized maximized => window.appearance none none none (some maximized) none
  | .fullscreen fullscreen => window.appearance none none none none (some fullscreen)

/-- `Window::toArray`. -/
def toArray (window : Window) (id : String) : Except String PhpValue := do
  Identifier.assert (osString id) "The window identifier"
  return Serving.named [("id", Serving.phpText id), ("entry", Serving.phpText window.entry),
    ("title", Serving.phpText window.title), ("width", .int window.width),
    ("height", .int window.height), ("minWidth", .int window.minWidth),
    ("minHeight", .int window.minHeight), ("resizable", .bool window.resizable),
    ("visible", .bool window.visible), ("theme", .int (window.theme.ctorIdx + 1)),
    ("decorated", .bool window.decorated), ("transparent", .bool window.transparent),
    ("alwaysOnTop", .bool window.alwaysOnTop), ("maximized", .bool window.maximized),
    ("fullscreen", .bool window.fullscreen)]

end Window

end PamDesktop.Php
