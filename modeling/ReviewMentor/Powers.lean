/-!
# Powers

Powers of numbers are those of the core library wherever they are written, also next to imports that
know other instances for them.
-/

attribute [instance (2000), default_instance 20000] instPowNat
