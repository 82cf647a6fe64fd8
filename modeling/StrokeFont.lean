import StrokeFont.Glyph.Cursor
import StrokeFont.Main
import StrokeFont.Session
import StrokeFont.Proofs.Binary.Rounding
import StrokeFont.Proofs.Binary.Overflow
import StrokeFont.Proofs.Scale
import StrokeFont.Proofs.Raster
import StrokeFont.Proofs.Settings
import StrokeFont.Proofs.Glyph.Grammar
import StrokeFont.Proofs.Glyph.Recognition
import StrokeFont.Proofs.Glyph.Turtle
import StrokeFont.Proofs.Glyph.Ink
import StrokeFont.Proofs.Glyph.Extent
import StrokeFont.Proofs.Glyph.Width
import StrokeFont.Proofs.Glyph.Continuation
import StrokeFont.Proofs.Glyph.Blank
import StrokeFont.Proofs.Glyph.Strokes
import StrokeFont.Proofs.Glyph.Stray
import StrokeFont.Proofs.Layout.Lines
import StrokeFont.Proofs.Layout.Partition
import StrokeFont.Proofs.Layout.Success
import StrokeFont.Proofs.Layout.Extent
import StrokeFont.Proofs.Layout.Malformed
import StrokeFont.Proofs.Translation
import StrokeFont.Proofs.Layout.Newline
import StrokeFont.Proofs.Canvas.Order
import StrokeFont.Proofs.Canvas.Window
import StrokeFont.Proofs.Command.Surface
import StrokeFont.Proofs.Glyph.Exact
import StrokeFont.Proofs.Scale.Order
import StrokeFont.Proofs.Layout.Limit
import StrokeFont.Proofs.Canvas.Studio
import StrokeFont.Proofs.Session.Frame
import StrokeFont.Proofs.Session.Independence
import StrokeFont.Proofs.Raster.Midpoint
import StrokeFont.Proofs.Raster.Reversal
import StrokeFont.Proofs.Raster.Stroke
import StrokeFont.Proofs.Raster.Solid
import StrokeFont.Proofs.Raster.Disc
import StrokeFont.Proofs.Layout.Fewest
import StrokeFont.Proofs.Layout.Room
import StrokeFont.Proofs.Layout.Overflow
import StrokeFont.Proofs.Canvas.Covering
import StrokeFont.Proofs.Settings.Refusal
import StrokeFont.Proofs.GlyphStore
import StrokeFont.Proofs.Settings.Validation
import StrokeFont.Proofs.Session.Requests
import StrokeFont.Proofs.Session.Failure
import StrokeFont.Proofs.Glyph.Cursor
